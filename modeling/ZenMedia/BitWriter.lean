import ZenMedia.BitStrings
import ZenMedia.ByteStuffing

/-! How x264 writes bits: they are collected in a machine word of four or eight bytes, which is
stored whenever 32 bits of it are full. -/
namespace ZenMedia.X264
open BitStrings ByteStuffing

/-- `WORD_SIZE` -/
inductive WordSize where
  | four
  | eight
  deriving DecidableEq, Repr

def WordSize.bits : WordSize → ℕ
  | four => 32
  | eight => 64

/-- `bs_t`: what is stored before `p`, from an address on that four divides. -/
structure Bs where
  written : List UInt8
  cur_bits : ℕ
  i_left : ℕ
  deriving DecidableEq, Repr

namespace Bs
variable (W : WordSize) (s : Bs)

/-- `bs_init`, behind bytes that are there already. -/
def init (before : List UInt8) : Bs :=
  let offset := before.length % 4
  let first := before.length - offset
  ⟨before.take first,readOn 0 (before.drop first),W.bits - 8 * offset⟩

/-- `bs_flush` -/
def flush : Bs :=
  ⟨s.written ++ (bigEndian 4 (s.cur_bits <<< (s.i_left &&& 31))).take (W.bits / 8 - s.i_left >>> 3),
    s.cur_bits,W.bits⟩

/-- `bs_realign` -/
def realign : Bs := if s.written.length % 4 = 0 then s else init W s.written

/-- `bs_write` -/
def write (i_count i_bits : ℕ) : Bs :=
  match W with
  | .eight =>
    let cur_bits := (s.cur_bits <<< i_count) % 2 ^ 64 ||| i_bits
    let i_left := s.i_left - i_count
    if i_left ≤ 32 then ⟨s.written ++ (bigEndian 8 (cur_bits <<< i_left)).take 4,cur_bits,i_left + 32⟩
    else ⟨s.written,cur_bits,i_left⟩
  | .four =>
    if i_count < s.i_left then
      ⟨s.written,(s.cur_bits <<< i_count) % 2 ^ 32 ||| i_bits,s.i_left - i_count⟩
    else
      let i_count := i_count - s.i_left
      let cur_bits := (s.cur_bits <<< s.i_left) % 2 ^ 32 ||| i_bits >>> i_count
      ⟨s.written ++ bigEndian 4 cur_bits,i_bits,32 - i_count⟩

/-- `bs_write32` -/
def write32 (i_bits : ℕ) : Bs := (s.write W 16 (i_bits >>> 16)).write W 16 i_bits

/-- `bs_write1` -/
def write1 (i_bit : ℕ) : Bs :=
  let cur_bits := (s.cur_bits <<< 1) % 2 ^ W.bits ||| i_bit
  let i_left := s.i_left - 1
  if i_left = W.bits - 32 then ⟨s.written ++ bigEndian 4 cur_bits,cur_bits,W.bits⟩
  else ⟨s.written,cur_bits,i_left⟩

/-- `bs_pos` -/
def pos : ℕ := 8 * s.written.length + W.bits - s.i_left

/-- `bs_rbsp_trailing` -/
def rbspTrailing : Bs :=
  let s := s.write1 W 1
  s.write W (s.i_left &&& 7) 0

end Bs

def ueSizeTab : List ℕ :=
  [1,1] ++ List.replicate 2 3 ++ List.replicate 4 5 ++ List.replicate 8 7 ++ List.replicate 16 9 ++
    List.replicate 32 11 ++ List.replicate 64 13 ++ List.replicate 128 15

namespace Bs
variable (W : WordSize) (s : Bs)

/-- `bs_write_ue` -/
def writeUe (val : ℕ) : Bs := s.write W (ueSizeTab.getD (val + 1) 0) (val + 1)

/-- `bs_write_ue_big` -/
def writeUeBig (val : ℕ) : Bs :=
  let tmp := val + 1
  let size := if 0x10000 ≤ tmp then 32 else 0
  let tmp := if 0x10000 ≤ tmp then tmp >>> 16 else tmp
  let size := if 0x100 ≤ tmp then size + 16 else size
  let tmp := if 0x100 ≤ tmp then tmp >>> 8 else tmp
  let size := size + ueSizeTab.getD tmp 0
  (s.write W (size >>> 1) 0).write W (size >>> 1 + 1) (val + 1)

/-- `bs_write_se` -/
def writeSe (val : ℤ) : Bs :=
  let tmp := 1 - val * 2
  let tmp := (if tmp < 0 then val * 2 else tmp).toNat
  let size := if 0x100 ≤ tmp then 16 else 0
  let index := if 0x100 ≤ tmp then tmp >>> 8 else tmp
  s.write W (size + ueSizeTab.getD index 0) tmp

/-- `bs_write_te` -/
def writeTe (x val : ℕ) : Bs := if x = 1 then s.write1 W (1 ^^^ val) else s.writeUe W val

end Bs

/-! ### The bits that are written -/

namespace Bs

/-- A word with room, and no more than 31 bits in it that are not stored. -/
structure Valid (W : WordSize) (s : Bs) : Prop where
  room : W.bits < s.i_left + 32
  left : s.i_left ≤ W.bits

/-- All bits that have been written. -/
def content (W : WordSize) (s : Bs) : List Bool :=
  bits s.written ++ bitsOf (W.bits - s.i_left) s.cur_bits

/-- What the bits above the last `i_count` would set is set already. -/
def Covered (s : Bs) (i_count i_bits : ℕ) : Prop :=
  s.cur_bits <<< i_count ||| i_bits = s.cur_bits * 2 ^ i_count + i_bits % 2 ^ i_count

lemma covered_of_lt (s : Bs) {i_count i_bits : ℕ} (h : i_bits < 2 ^ i_count) :
    Covered s i_count i_bits := by
  rw [Covered,← Nat.shiftLeft_add_eq_or_of_lt h,Nat.shiftLeft_eq,Nat.mod_eq_of_lt h]

/-- Bits that are moved up and joined, in a word of `w` bits. -/
lemma or_word {cur i_bits : ℕ} (w n : ℕ) (h : i_bits < 2 ^ w) :
    (cur <<< n) % 2 ^ w ||| i_bits = (cur <<< n ||| i_bits) % 2 ^ w := by
  rw [Nat.or_mod_two_pow,Nat.mod_eq_of_lt h]

/-- Stored are the first 32 of `n + 32` bits that are moved to the top of eight bytes. -/
lemma bits_stored {n : ℕ} (h : n ≤ 32) (v : ℕ) :
    bits ((bigEndian 8 ((v % 2 ^ 64) <<< (32 - n))).take 4) = bitsOf 32 (v / 2 ^ n) := by
  have hsplit := bigEndian_add 4 4 ((v % 2 ^ 64) <<< (32 - n))
  have htop : (v % 2 ^ 64) <<< (32 - n) / 256 ^ 4 = v % 2 ^ 64 / 2 ^ n := by
    have hpow : (256 : ℕ) ^ 4 = 2 ^ n * 2 ^ (32 - n) := by
      rw [← pow_add,Nat.add_sub_cancel' h]
      rfl
    rw [Nat.shiftLeft_eq,hpow,Nat.mul_div_mul_right _ _ (Nat.two_pow_pos _)]
  rw [hsplit,htop,List.take_left' (bigEndian_length 4 _),bits_bigEndian]
  apply bitsOf_congr
  have hpow : (2 : ℕ) ^ 64 = 2 ^ n * 2 ^ (64 - n) := by
    rw [← pow_add,Nat.add_sub_cancel' (by omega)]
  have hdvd : 2 ^ (8 * 4) ∣ 2 ^ (64 - n) := pow_dvd_pow 2 (by omega)
  rw [hpow,Nat.mod_mul_right_div_self,Nat.mod_mod_of_dvd _ hdvd]

/-- Whatever the size of the word, what is written comes behind what was written before. -/
lemma write_content {W : WordSize} {s : Bs} (h : s.Valid W) {i_count i_bits : ℕ} (hcount : i_count ≤ 31)
    (hbits : i_bits < 2 ^ 32) (hcovered : Covered s i_count i_bits) :
    (s.write W i_count i_bits).content W = s.content W ++ bitsOf i_count i_bits ∧
      (s.write W i_count i_bits).Valid W := by
  obtain ⟨hroom,hleft⟩ := h
  have hall : bitsOf (W.bits - s.i_left + i_count) (s.cur_bits * 2 ^ i_count + i_bits % 2 ^ i_count) =
      bitsOf (W.bits - s.i_left) s.cur_bits ++ bitsOf i_count i_bits := by
    rw [bitsOf_add _ _ _ _ (Nat.mod_lt _ (Nat.two_pow_pos _)),bitsOf_mod]
  cases W with
  | eight =>
    simp only [WordSize.bits] at hroom hleft hall
    simp only [write]
    rw [or_word 64 i_count (by omega),hcovered]
    generalize s.cur_bits * 2 ^ i_count + i_bits % 2 ^ i_count = X at hall ⊢
    split_ifs with hfull
    · obtain ⟨n,hn⟩ : ∃ n, s.i_left - i_count = 32 - n ∧ n ≤ 32 := ⟨32 - (s.i_left - i_count),by omega⟩
      have hkept : 64 - (32 - n + 32) = n := by omega
      have hcount : 64 - s.i_left + i_count = 32 + n := by omega
      constructor
      · rw [hcount,bitsOf_split] at hall
        simp only [content,WordSize.bits,hn.1,hkept]
        rw [bits_append,bits_stored hn.2,bitsOf_word (by omega),List.append_assoc,hall,
          List.append_assoc]
      · constructor <;> simp only [WordSize.bits] <;> omega
    · have hcount : 64 - (s.i_left - i_count) = 64 - s.i_left + i_count := by omega
      constructor
      · simp only [content,WordSize.bits,hcount]
        rw [bitsOf_word (by omega),hall,List.append_assoc]
      · constructor <;> simp only [WordSize.bits] <;> omega
  | four =>
    simp only [WordSize.bits] at hroom hleft hall
    simp only [write]
    split_ifs with hfits
    · rw [or_word 32 i_count hbits,hcovered]
      have hcount : 32 - (s.i_left - i_count) = 32 - s.i_left + i_count := by omega
      constructor
      · simp only [content,WordSize.bits,hcount]
        rw [bitsOf_word (by omega),hall,List.append_assoc]
      · constructor <;> simp only [WordSize.bits] <;> omega
    · obtain ⟨n,rfl⟩ : ∃ n, i_count = s.i_left + n := ⟨i_count - s.i_left,by omega⟩
      have hshift : s.cur_bits <<< s.i_left ||| i_bits >>> n =
          (s.cur_bits <<< (s.i_left + n) ||| i_bits) >>> n := by
        rw [Nat.shiftRight_or_distrib,Nat.shiftLeft_add,Nat.shiftLeft_shiftRight]
      have hsmall : i_bits >>> n < 2 ^ 32 := by
        rw [Nat.shiftRight_eq_div_pow]
        exact lt_of_le_of_lt (Nat.div_le_self _ _) hbits
      have hlow : (s.cur_bits * 2 ^ (s.i_left + n) + i_bits % 2 ^ (s.i_left + n)) % 2 ^ n =
          i_bits % 2 ^ n := by
        have hdvd : 2 ^ n ∣ 2 ^ (s.i_left + n) := pow_dvd_pow 2 (by omega)
        rw [Nat.add_mod,Nat.mod_mod_of_dvd _ hdvd,Nat.mod_eq_zero_of_dvd (hdvd.mul_left _),
          Nat.zero_add,Nat.mod_mod]
      have hcount : 32 - s.i_left + (s.i_left + n) = 32 + n := by omega
      have hkept : 32 - (32 - n) = n := by omega
      rw [Nat.add_sub_cancel_left,or_word 32 _ hsmall,hshift,hcovered]
      rw [hcount,bitsOf_split,bitsOf_congr hlow] at hall
      generalize s.cur_bits * 2 ^ (s.i_left + n) + i_bits % 2 ^ (s.i_left + n) = X at hall ⊢
      constructor
      · simp only [content,WordSize.bits,hkept]
        rw [bits_append,bits_bigEndian,bitsOf_word (by omega),Nat.shiftRight_eq_div_pow,
          List.append_assoc,hall,List.append_assoc]
      · constructor <;> simp only [WordSize.bits] <;> omega

lemma write_of_lt {W : WordSize} {s : Bs} (h : s.Valid W) {i_count i_bits : ℕ} (hcount : i_count ≤ 31)
    (hbits : i_bits < 2 ^ i_count) :
    (s.write W i_count i_bits).content W = s.content W ++ bitsOf i_count i_bits ∧
      (s.write W i_count i_bits).Valid W := by
  have hword : i_bits < 2 ^ 32 := lt_trans hbits (Nat.pow_lt_pow_right (by decide) (by omega))
  exact write_content h hcount hword (s.covered_of_lt hbits)

/-- What is written last stands last in the word. -/
lemma write_cur_bits {W : WordSize} (s : Bs) {i_count i_bits : ℕ} (hcount : i_count ≤ 31)
    (hbits : i_bits < 2 ^ i_count) : (s.write W i_count i_bits).cur_bits % 2 ^ i_count = i_bits := by
  have hword : i_bits < 2 ^ 32 := lt_trans hbits (Nat.pow_lt_pow_right (by decide) (by omega))
  have hjoined (w : ℕ) (hw : i_count ≤ w) (hi : i_bits < 2 ^ w) :
      ((s.cur_bits <<< i_count) % 2 ^ w ||| i_bits) % 2 ^ i_count = i_bits := by
    rw [or_word w i_count hi,s.covered_of_lt hbits,Nat.mod_mod_of_dvd _ (pow_dvd_pow 2 hw),
      Nat.mod_eq_of_lt hbits,Nat.mul_add_mod_self_right,Nat.mod_eq_of_lt hbits]
  cases W with
  | eight =>
    have h := hjoined 64 (by omega) (by omega)
    simp only [write]
    split_ifs <;> exact h
  | four =>
    have h := hjoined 32 (by omega) hword
    simp only [write]
    split_ifs
    · exact h
    · exact Nat.mod_eq_of_lt hbits

/-- In the second half all 32 bits are joined to the word; the first 16 of them meet themselves. -/
lemma write32_content {W : WordSize} {s : Bs} (h : s.Valid W) {i_bits : ℕ} (hbits : i_bits < 2 ^ 32) :
    (s.write32 W i_bits).content W = s.content W ++ bitsOf 32 i_bits ∧ (s.write32 W i_bits).Valid W := by
  have hhigh : i_bits >>> 16 < 2 ^ 16 := by
    rw [Nat.shiftRight_eq_div_pow]
    omega
  obtain ⟨hfirst,hvalid⟩ := write_of_lt h (by decide : 16 ≤ 31) hhigh
  have hlast := s.write_cur_bits (W := W) (by decide : 16 ≤ 31) hhigh
  rw [write32]
  generalize s.write W 16 (i_bits >>> 16) = t at hfirst hvalid hlast ⊢
  have hcovered : t.Covered 16 i_bits := by
    have hself : t.cur_bits ||| i_bits >>> 16 = t.cur_bits := by
      apply Nat.eq_of_testBit_eq
      intro j
      rw [Nat.testBit_or,← hlast,Nat.testBit_mod_two_pow]
      cases t.cur_bits.testBit j <;> simp
    have hlow : i_bits % 2 ^ 16 < 2 ^ 16 := Nat.mod_lt _ (by decide)
    have hparts : i_bits = (i_bits >>> 16) <<< 16 ||| i_bits % 2 ^ 16 := by
      rw [← Nat.shiftLeft_add_eq_or_of_lt hlow,Nat.shiftLeft_eq,Nat.shiftRight_eq_div_pow]
      omega
    have hjoin : t.cur_bits <<< 16 ||| i_bits = t.cur_bits <<< 16 ||| i_bits % 2 ^ 16 := by
      conv_lhs => rw [hparts]
      rw [← Nat.or_assoc,← Nat.shiftLeft_or_distrib,hself]
    rw [Covered,hjoin,← Nat.shiftLeft_add_eq_or_of_lt hlow,Nat.shiftLeft_eq]
  obtain ⟨hsecond,hdone⟩ := write_content hvalid (by decide) hbits hcovered
  refine ⟨?_,hdone⟩
  rw [hsecond,hfirst,Nat.shiftRight_eq_div_pow,List.append_assoc,bitsOf_split 16 16]

lemma write1_content {W : WordSize} {s : Bs} (h : s.Valid W) {i_bit : ℕ} (hbit : i_bit < 2) :
    (s.write1 W i_bit).content W = s.content W ++ bitsOf 1 i_bit ∧ (s.write1 W i_bit).Valid W := by
  obtain ⟨hroom,hleft⟩ := h
  have hwidth : 32 ≤ W.bits := by cases W <;> decide
  have hword : i_bit < 2 ^ W.bits :=
    lt_of_lt_of_le hbit (Nat.pow_le_pow_right (by decide : (2 : ℕ) > 0) (by omega : 1 ≤ W.bits))
  have hall : bitsOf (W.bits - s.i_left + 1) (s.cur_bits * 2 ^ 1 + i_bit) =
      bitsOf (W.bits - s.i_left) s.cur_bits ++ bitsOf 1 i_bit := bitsOf_add _ 1 _ _ hbit
  have hcovered := s.covered_of_lt (by simpa using hbit : i_bit < 2 ^ 1)
  rw [Covered,Nat.mod_eq_of_lt (by simpa using hbit : i_bit < 2 ^ 1)] at hcovered
  simp only [write1]
  rw [or_word W.bits 1 hword,hcovered]
  generalize s.cur_bits * 2 ^ 1 + i_bit = X at hall ⊢
  split_ifs with hfull
  · have hcount : W.bits - s.i_left + 1 = 32 := by omega
    rw [hcount] at hall
    constructor
    · simp only [content,Nat.sub_self]
      rw [bits_append,bits_bigEndian,bitsOf_word hwidth,List.append_assoc,List.append_assoc,← hall]
      simp [bitsOf]
    · constructor <;> dsimp only <;> omega
  · have hcount : W.bits - (s.i_left - 1) = W.bits - s.i_left + 1 := by omega
    constructor
    · simp only [content,hcount]
      rw [bitsOf_word (by omega),hall,List.append_assoc]
    · constructor <;> dsimp only <;> omega

/-- By `bs_flush` the last bits are stored as well, and zeros up to a byte. -/
lemma flush_written {W : WordSize} {s : Bs} (h : s.Valid W) :
    ∃ k < 8, bits (s.flush W).written = s.content W ++ List.replicate k false := by
  obtain ⟨hroom,hleft⟩ := h
  have hmask : s.i_left &&& 31 = s.i_left % 32 := Nat.and_two_pow_sub_one_eq_mod s.i_left 5
  have heighth : s.i_left >>> 3 = s.i_left / 8 := Nat.shiftRight_eq_div_pow s.i_left 3
  obtain ⟨n,hn⟩ : ∃ n, W.bits - s.i_left = n := ⟨_,rfl⟩
  obtain ⟨m,hm⟩ : ∃ m, W.bits / 8 - s.i_left / 8 = m := ⟨_,rfl⟩
  have hbytes : n ≤ 8 * m ∧ 8 * m < n + 8 ∧ (0 < n → s.i_left % 32 = 32 - n) := by
    cases W <;> simp only [WordSize.bits] at hroom hleft hn hm <;> omega
  have hstored : bits ((bigEndian 4 (s.cur_bits <<< (s.i_left % 32))).take m) =
      bitsOf n s.cur_bits ++ List.replicate (8 * m - n) false := by
    rw [bits_take,bits_bigEndian]
    rcases Nat.eq_zero_or_pos n with rfl | hpos
    · have hzero : m = 0 := by omega
      simp [hzero,bitsOf]
    · have hall : bitsOf (8 * 4) (s.cur_bits <<< (32 - n)) =
          bitsOf n s.cur_bits ++ List.replicate (32 - n) false := by
        have hadd := bitsOf_add n (32 - n) s.cur_bits 0 (Nat.two_pow_pos _)
        rwa [Nat.add_zero,bitsOf_zero,Nat.add_sub_cancel' (by omega),← Nat.shiftLeft_eq] at hadd
      rw [hbytes.2.2 hpos,hall,List.take_append,bitsOf_length,List.take_of_length_le (by simp; omega),
        List.take_replicate,min_eq_left (by omega)]
  refine ⟨8 * m - n,by omega,?_⟩
  simp only [flush,hmask,heighth,hm]
  rw [bits_append,hstored,content,hn,List.append_assoc]

lemma init_content (W : WordSize) (before : List UInt8) :
    (init W before).content W = bits before ∧ (init W before).Valid W := by
  have hmod : before.length % 4 ≤ before.length := Nat.mod_le _ _
  have hlt : before.length % 4 < 4 := Nat.mod_lt _ (by decide)
  have hwidth : 32 ≤ W.bits := by cases W <;> decide
  have hlen : (before.drop (before.length - before.length % 4)).length = before.length % 4 := by
    rw [List.length_drop]
    omega
  have hlast := bits_readOn (before.drop (before.length - before.length % 4))
  rw [hlen] at hlast
  have hcount : W.bits - (W.bits - 8 * (before.length % 4)) = 8 * (before.length % 4) := by omega
  constructor
  · simp only [init,content]
    rw [hcount,hlast,← bits_append,List.take_append_drop]
  · constructor <;> simp only [init] <;> omega

/-- The number of bits that have been written. -/
lemma pos_eq {W : WordSize} {s : Bs} (h : s.Valid W) : s.pos W = (s.content W).length := by
  have hleft := h.left
  simp only [pos,content,List.length_append,bits_length,bitsOf_length]
  omega

end Bs

end ZenMedia.X264
