import ZenMedia.BitWriter
import ZenMedia.BitReader
import ZenMedia.NalSplitting

/-! The elements that make up a unit: what the encoder writes of them, one after the other in
front of the stop bit, is what the decoder reads. -/
namespace ZenMedia.H264
open BitStrings ByteStuffing X264 GetBits

/-- The kinds of elements, by the functions that write and read them. -/
inductive Kind where
  | u (n : ℕ)
  | u1
  | u32
  | ue
  | ueBig
  | se
  | te (x : ℕ)
  deriving DecidableEq, Repr

namespace Kind

def write (W : WordSize) (s : Bs) : Kind → ℤ → Bs
  | u n, v => s.write W n v.toNat
  | u1, v => s.write1 W v.toNat
  | u32, v => s.write32 W v.toNat
  | ue, v => s.writeUe W v.toNat
  | ueBig, v => s.writeUeBig W v.toNat
  | se, v => s.writeSe W v
  | te x, v => s.writeTe W x v.toNat

def read (buf : List UInt8) (index : ℕ) : Kind → ℤ × ℕ
  | u n => ((getBits n buf index).1,(getBits n buf index).2)
  | u1 => ((getBits1 buf index).1,(getBits1 buf index).2)
  | u32 => ((getBitsLong 32 buf index).1,(getBitsLong 32 buf index).2)
  | ue => getUeGolomb buf index
  | ueBig => ((getUeGolombLong buf index).1,(getUeGolombLong buf index).2)
  | se => getSeGolomb buf index
  | te x => getTeGolomb (x + 1) buf index

/-- The values that the writing functions are made for. -/
def Fits : Kind → ℤ → Prop
  | u n, v => (0 < n ∧ n ≤ 25) ∧ 0 ≤ v ∧ v < 2 ^ n
  | u1, v => v = 0 ∨ v = 1
  | u32, v => 0 ≤ v ∧ v < 2 ^ 32
  | ue, v => 0 ≤ v ∧ v < 255
  | ueBig, v => 0 ≤ v ∧ v + 1 < 2 ^ 31
  | se, v => -2 ^ 15 < v ∧ v < 2 ^ 15
  | te x, v => 0 ≤ v ∧ v < 255 ∧ (x = 1 → v ≤ 1)

instance (k : Kind) (v : ℤ) : Decidable (k.Fits v) := by
  cases k <;> unfold Fits <;> infer_instance

/-- The number that is coded for a signed one. -/
def unsigned (v : ℤ) : ℕ := (if v ≤ 0 then -2 * v else 2 * v - 1).toNat

def code : Kind → ℤ → List Bool
  | u n, v => bitsOf n v.toNat
  | u1, v => bitsOf 1 v.toNat
  | u32, v => bitsOf 32 v.toNat
  | ue, v => ueCode v.toNat
  | ueBig, v => ueCode v.toNat
  | se, v => ueCode (unsigned v)
  | te x, v => if x = 1 then bitsOf 1 (1 - v.toNat) else ueCode v.toNat

end Kind

/-! ### Writing -/

lemma ueSizeTab_eq {i : ℕ} (hpos : 0 < i) (h : i < 256) : ueSizeTab.getD i 0 = 2 * Nat.log2 i + 1 := by
  have htab : ueSizeTab.drop 1 = (List.range' 1 255).map (fun i => 2 * Nat.log2 i + 1) := by
    decide +kernel
  exact getD_of_drop 0 htab hpos h

lemma log2_shiftRight {t n : ℕ} (h : 2 ^ n ≤ t) : Nat.log2 t = Nat.log2 (t >>> n) + n := by
  have hparts := Nat.div_add_mod' t (2 ^ n)
  have hpos : 0 < t / 2 ^ n := Nat.div_pos h (Nat.two_pow_pos n)
  have hlog := log2_shifted hpos (Nat.mod_lt t (Nat.two_pow_pos n))
  rw [hparts] at hlog
  rw [hlog,Nat.shiftRight_eq_div_pow]

/-- A number that is written as long as its code is. -/
lemma write_ueCode {W : WordSize} {s : Bs} (h : s.Valid W) {v : ℕ} (hv : Nat.log2 (v + 1) ≤ 15) :
    (s.write W (2 * Nat.log2 (v + 1) + 1) (v + 1)).content W = s.content W ++ ueCode v ∧
      (s.write W (2 * Nat.log2 (v + 1) + 1) (v + 1)).Valid W := by
  have hlt := (log2_bounds v).2
  have hle : 2 ^ (Nat.log2 (v + 1) + 1) ≤ 2 ^ (2 * Nat.log2 (v + 1) + 1) :=
    Nat.pow_le_pow_right (by decide : (2 : ℕ) > 0) (by omega)
  exact Bs.write_of_lt h (by omega) (lt_of_lt_of_le hlt hle)

lemma writeUe_content {W : WordSize} {s : Bs} (h : s.Valid W) {v : ℕ} (hv : v < 255) :
    (s.writeUe W v).content W = s.content W ++ ueCode v ∧ (s.writeUe W v).Valid W := by
  have hlog : Nat.log2 (v + 1) < 8 := (Nat.log2_lt (Nat.succ_ne_zero v)).mpr (by omega)
  rw [Bs.writeUe,ueSizeTab_eq (Nat.succ_pos v) (by omega)]
  exact write_ueCode h (by omega)

/-- The size that is worked out for the code of a number of up to 16 bits. -/
lemma ueSize_word {t : ℕ} (hpos : 0 < t) (ht : t < 2 ^ 16) :
    (if 0x100 ≤ t then 16 else 0) + ueSizeTab.getD (if 0x100 ≤ t then t >>> 8 else t) 0 =
      2 * Nat.log2 t + 1 := by
  have hnext : t >>> 8 = t / 256 := Nat.shiftRight_eq_div_pow t 8
  split_ifs with hbyte
  · have hlog := log2_shiftRight (n := 8) hbyte
    rw [ueSizeTab_eq (by omega) (by omega)]
    omega
  · rw [ueSizeTab_eq hpos (by omega),Nat.zero_add]

lemma writeUeBig_content {W : WordSize} {s : Bs} (h : s.Valid W) {v : ℕ} (hv : v + 1 < 2 ^ 31) :
    (s.writeUeBig W v).content W = s.content W ++ ueCode v ∧ (s.writeUeBig W v).Valid W := by
  have hlog : Nat.log2 (v + 1) < 31 := (Nat.log2_lt (Nat.succ_ne_zero v)).mpr hv
  have hwrite : s.writeUeBig W v =
      (s.write W (Nat.log2 (v + 1)) 0).write W (Nat.log2 (v + 1) + 1) (v + 1) := by
    have hword : (v + 1) >>> 16 = (v + 1) / 65536 := Nat.shiftRight_eq_div_pow _ 16
    have hhalf : (2 * Nat.log2 (v + 1) + 1) >>> 1 = Nat.log2 (v + 1) := by
      rw [Nat.shiftRight_eq_div_pow]
      omega
    obtain ⟨size,hsize⟩ : ∃ size, (if 0x10000 ≤ v + 1 then 32 else 0) = size := ⟨_,rfl⟩
    obtain ⟨t,ht⟩ : ∃ t, (if 0x10000 ≤ v + 1 then (v + 1) >>> 16 else v + 1) = t := ⟨_,rfl⟩
    have hparts : 0 < t ∧ t < 2 ^ 16 ∧ 2 * Nat.log2 (v + 1) = size + 2 * Nat.log2 t := by
      split_ifs at hsize ht with hlarge
      · have hlog := log2_shiftRight (n := 16) hlarge
        rw [ht] at hlog hword
        omega
      · rw [← ht]
        omega
    have hlast := ueSize_word hparts.1 hparts.2.1
    have hall : (if 0x100 ≤ t then size + 16 else size) +
        ueSizeTab.getD (if 0x100 ≤ t then t >>> 8 else t) 0 = 2 * Nat.log2 (v + 1) + 1 := by
      split_ifs at hlast ⊢ <;> omega
    simp only [Bs.writeUeBig]
    rw [hsize,ht,hall,hhalf]
  obtain ⟨hfirst,hvalid⟩ := Bs.write_of_lt h (by omega : Nat.log2 (v + 1) ≤ 31) (Nat.two_pow_pos _)
  obtain ⟨hsecond,hdone⟩ := Bs.write_of_lt hvalid (by omega : Nat.log2 (v + 1) + 1 ≤ 31) (log2_bounds v).2
  rw [hwrite]
  refine ⟨?_,hdone⟩
  rw [hsecond,hfirst,ueCode_split,bitsOf_zero,List.append_assoc]

/-- The number that stands for a signed one, as `bs_write_se` works it out. -/
lemma unsigned_succ (v : ℤ) :
    (if 1 - v * 2 < 0 then v * 2 else 1 - v * 2).toNat = Kind.unsigned v + 1 := by
  unfold Kind.unsigned
  split_ifs <;> omega

lemma signedOf_unsigned (v : ℤ) : signedOf (Kind.unsigned v + 1) = v := by
  unfold signedOf Kind.unsigned
  split_ifs <;> omega

lemma writeSe_content {W : WordSize} {s : Bs} (h : s.Valid W) {v : ℤ} (hlow : -2 ^ 15 < v) (hhigh : v < 2 ^ 15) :
    (s.writeSe W v).content W = s.content W ++ ueCode (Kind.unsigned v) ∧ (s.writeSe W v).Valid W := by
  have hsmall : Kind.unsigned v + 1 < 2 ^ 16 := by
    unfold Kind.unsigned
    split_ifs <;> omega
  have hlog : Nat.log2 (Kind.unsigned v + 1) < 16 := (Nat.log2_lt (Nat.succ_ne_zero _)).mpr hsmall
  have hwrite : s.writeSe W v = s.write W (2 * Nat.log2 (Kind.unsigned v + 1) + 1) (Kind.unsigned v + 1) := by
    simp only [Bs.writeSe]
    rw [unsigned_succ,ueSize_word (Nat.succ_pos _) hsmall]
  rw [hwrite]
  exact write_ueCode h (by omega)

/-- Each element is written behind what is there, as its code. -/
lemma Kind.write_content {W : WordSize} {s : Bs} (h : s.Valid W) {k : Kind} {v : ℤ} (hfits : k.Fits v) :
    (k.write W s v).content W = s.content W ++ k.code v ∧ (k.write W s v).Valid W := by
  cases k with
  | u n =>
    have hv : v.toNat < 2 ^ n := by
      rw [Int.toNat_lt hfits.2.1]
      exact_mod_cast hfits.2.2
    exact Bs.write_of_lt h (by have := hfits.1.2; omega) hv
  | u1 =>
    have hv : v.toNat < 2 := by
      rcases hfits with rfl | rfl <;> decide
    exact Bs.write1_content h hv
  | u32 =>
    have hv : v.toNat < 2 ^ 32 := by
      have := hfits.2
      omega
    exact Bs.write32_content h hv
  | ue =>
    have := hfits.2
    exact writeUe_content h (by omega)
  | ueBig =>
    have := hfits.2
    have := hfits.1
    exact writeUeBig_content h (by omega)
  | se => exact writeSe_content h hfits.1 hfits.2
  | te x =>
    obtain ⟨hlow,hhigh,hone⟩ := hfits
    simp only [Kind.write,Kind.code,Bs.writeTe]
    split_ifs with hx
    · have hv := hone hx
      rcases (by omega : v = 0 ∨ v = 1) with rfl | rfl
      · exact Bs.write1_content h (by decide)
      · exact Bs.write1_content h (by decide)
    · exact writeUe_content h (by omega)

/-! ### Reading -/

/-- Codes that come next, in front of the padding. -/
lemma ahead_of_bits {buf : List UInt8} {index : ℕ} {code rest : List Bool}
    (h : (bits buf).drop index = code ++ rest) (hindex : index ≤ 8 * buf.length) :
    ∃ more, ahead buf index = code ++ more := by
  refine ⟨rest ++ bits (List.replicate 8 0),?_⟩
  rw [ahead,bits_append,List.drop_append_of_le_length (by rw [bits_length]; exact hindex),h,
    List.append_assoc]

/-- A number of `n` bits that comes next. -/
lemma getBits_number {buf : List UInt8} {index n v : ℕ} {more : List Bool} (hn : n ≤ 25) (hv : v < 2 ^ n)
    (hcode : ahead buf index = bitsOf n v ++ more) (hindex : index ≤ 8 * buf.length) :
    getBits n buf index = (v,index + n) := by
  have hread := getBits_code (by omega) hcode (by rw [bitsOf_length]; exact hn)
  rwa [bitsOf_length,value_bitsOf,Nat.zero_mul,Nat.zero_add,Nat.mod_eq_of_lt hv] at hread

/-- Each element is read from where its code begins. -/
lemma Kind.read_code {buf : List UInt8} {index : ℕ} {k : Kind} {v : ℤ} {rest : List Bool}
    (hfits : k.Fits v) (hcode : (bits buf).drop index = k.code v ++ rest)
    (hindex : index + (k.code v).length ≤ 8 * buf.length) :
    k.read buf index = (v,index + (k.code v).length) := by
  obtain ⟨more,hahead⟩ := ahead_of_bits hcode (by omega)
  have hue {w : ℕ} (hw : index + (ueCode w).length ≤ 8 * buf.length) :
      index + Nat.log2 (w + 1) ≤ 8 * buf.length := by
    rw [ueCode_length] at hw
    omega
  cases k with
  | u n =>
    obtain ⟨⟨-,hn⟩,hlow,hhigh⟩ := hfits
    have hv : v.toNat < 2 ^ n := by
      rw [Int.toNat_lt hlow]
      exact_mod_cast hhigh
    have hread := getBits_number hn hv hahead (by omega)
    simp only [Kind.read,hread,Kind.code,bitsOf_length]
    rw [Int.toNat_of_nonneg hlow]
  | u1 =>
    have hv : v.toNat < 2 ^ 1 ∧ 0 ≤ v := by
      rcases hfits with rfl | rfl <;> decide
    have hread := getBits_number (by decide) hv.1 hahead (by omega)
    simp only [Kind.read,getBits1_eq,hread,Kind.code,bitsOf_length]
    rw [Int.toNat_of_nonneg hv.2]
  | u32 =>
    have hv : v.toNat < 2 ^ 32 := by
      have := hfits.2
      omega
    have hread := getBitsLong_code (by omega : index ≤ 8 * buf.length + 16) hahead
      (by simp only [Kind.code,bitsOf_length,le_refl])
    simp only [Kind.code,bitsOf_length,value_bitsOf,Nat.zero_mul,Nat.zero_add] at hread
    rw [Nat.mod_eq_of_lt hv] at hread
    simp only [Kind.read,hread,Kind.code,bitsOf_length]
    rw [Int.toNat_of_nonneg hfits.1]
  | ue =>
    have hread := getUeGolomb_code (by omega) hahead (by have := hfits.2; omega)
    rw [Int.toNat_of_nonneg hfits.1] at hread
    exact hread
  | ueBig =>
    have hread := getUeGolombLong_code (by have := hue hindex; omega) hahead
      (by have := hfits.2; have := hfits.1; omega)
    simp only [Kind.read,hread]
    rw [Int.toNat_of_nonneg hfits.1]
    rfl
  | se =>
    have hsmall : Kind.unsigned v + 1 < 2 ^ 16 := by
      have hlow := hfits.1
      have hhigh := hfits.2
      unfold Kind.unsigned
      split_ifs <;> omega
    have hlog : Nat.log2 (Kind.unsigned v + 1) < 16 := (Nat.log2_lt (Nat.succ_ne_zero _)).mpr hsmall
    have hread := getSeGolomb_code (by have := hue hindex; omega) hahead (by omega)
    rw [signedOf_unsigned] at hread
    exact hread
  | te x =>
    obtain ⟨hlow,hhigh,hone⟩ := hfits
    simp only [Kind.code] at hahead hindex ⊢
    simp only [Kind.read,getTeGolomb,Nat.reduceEqDiff]
    split_ifs at hahead hindex ⊢ with hx
    · have hread := getBits_number (by decide) (by omega : 1 - v.toNat < 2 ^ 1) hahead (by omega)
      rw [getBits1_eq,hread,bitsOf_length]
      rcases (by have := hone hx; omega : v = 0 ∨ v = 1) with rfl | rfl <;> simp
    · have hread := getUeGolomb_code (by omega) hahead (by omega)
      rw [Int.toNat_of_nonneg hlow] at hread
      exact hread

/-! ### A unit of elements -/

/-- The bytes of a unit behind those that are there, from `bs_realign` to `bs_flush`. -/
def payload (W : WordSize) (before : List UInt8) (fields : List (Kind × ℤ)) : List UInt8 :=
  (((fields.foldl (fun s field => field.1.write W s field.2) (Bs.init W before)).rbspTrailing W).flush
    W).written.drop before.length

def readAll (buf : List UInt8) : ℕ → List Kind → List ℤ × ℕ
  | index, [] => ([],index)
  | index, k :: kinds =>
    let (v,index) := k.read buf index
    let (values,index) := readAll buf index kinds
    (v :: values,index)

/-- The codes of the elements. -/
def codes (fields : List (Kind × ℤ)) : List Bool := fields.flatMap fun field => field.1.code field.2

lemma writeAll_content {W : WordSize} {fields : List (Kind × ℤ)} (h : ∀ field ∈ fields, field.1.Fits field.2)
    {s : Bs} (hs : s.Valid W) :
    (fields.foldl (fun s field => field.1.write W s field.2) s).content W = s.content W ++ codes fields ∧
      (fields.foldl (fun s field => field.1.write W s field.2) s).Valid W := by
  induction fields generalizing s with
  | nil => exact ⟨(List.append_nil _).symm,hs⟩
  | cons field fields ih =>
    obtain ⟨hfirst,hvalid⟩ := Kind.write_content hs (h field List.mem_cons_self)
    obtain ⟨hrest,hdone⟩ := ih (fun field hf => h field (List.mem_cons_of_mem _ hf)) hvalid
    refine ⟨?_,hdone⟩
    rw [List.foldl_cons,hrest,hfirst,List.append_assoc]
    rfl

/-- The stop bit, and zeros up to a byte. -/
lemma rbspTrailing_content {W : WordSize} {s : Bs} (h : s.Valid W) : ∃ k < 8,
    (s.rbspTrailing W).content W = s.content W ++ true :: List.replicate k false ∧
      (s.rbspTrailing W).Valid W ∧ ((s.rbspTrailing W).content W).length % 8 = 0 := by
  obtain ⟨hone,hvalid⟩ := Bs.write1_content h (by decide : 1 < 2)
  have hmask : (s.write1 W 1).i_left &&& 7 = (s.write1 W 1).i_left % 8 :=
    Nat.and_two_pow_sub_one_eq_mod _ 3
  have hk : (s.write1 W 1).i_left % 8 < 8 := Nat.mod_lt _ (by decide)
  obtain ⟨hzeros,hdone⟩ := Bs.write_of_lt hvalid (by omega : (s.write1 W 1).i_left % 8 ≤ 31)
    (Nat.two_pow_pos _)
  have hcontent : (s.rbspTrailing W).content W =
      s.content W ++ true :: List.replicate ((s.write1 W 1).i_left % 8) false := by
    rw [Bs.rbspTrailing,hmask,hzeros,hone,bitsOf_zero,List.append_assoc]
    rfl
  refine ⟨_,hk,hcontent,?_,?_⟩
  · rw [Bs.rbspTrailing,hmask]
    exact hdone
  · have hlen : ((s.write1 W 1).content W).length = (s.content W).length + 1 := by
      rw [hone,List.length_append,bitsOf_length]
    have hleft := hvalid.left
    have hwidth : W.bits % 8 = 0 := by cases W <;> rfl
    rw [Bs.content,List.length_append,bits_length,bitsOf_length] at hlen
    rw [hcontent,List.length_append,List.length_cons,List.length_replicate]
    omega

/-- What is stored of a unit. -/
lemma bits_payload (W : WordSize) (before : List UInt8) {fields : List (Kind × ℤ)}
    (h : ∀ field ∈ fields, field.1.Fits field.2) : ∃ k < 8,
    bits (payload W before fields) = codes fields ++ true :: List.replicate k false := by
  obtain ⟨hinit,hstart⟩ := Bs.init_content W before
  obtain ⟨hfields,hwritten⟩ := writeAll_content h hstart
  obtain ⟨k,hk,htrailing,hstopped,haligned⟩ := rbspTrailing_content hwritten
  obtain ⟨pad,hpad,hflush⟩ := Bs.flush_written hstopped
  have hnone : pad = 0 := by
    have hlen := congrArg List.length hflush
    rw [bits_length,List.length_append,List.length_replicate] at hlen
    omega
  refine ⟨k,hk,?_⟩
  rw [payload,bits_drop,hflush,hnone,htrailing,hfields,hinit,List.replicate_zero,List.append_nil,
    List.append_assoc,← bits_length before,List.drop_left]

lemma readAll_codes {buf : List UInt8} {fields : List (Kind × ℤ)}
    (h : ∀ field ∈ fields, field.1.Fits field.2) {index : ℕ} {rest : List Bool}
    (hcode : (bits buf).drop index = codes fields ++ rest)
    (hindex : index + (codes fields).length ≤ 8 * buf.length) :
    readAll buf index (fields.map Prod.fst) = (fields.map Prod.snd,index + (codes fields).length) := by
  induction fields generalizing index with
  | nil => rfl
  | cons field fields ih =>
    have hcons : codes (field :: fields) = field.1.code field.2 ++ codes fields := rfl
    rw [hcons,List.append_assoc] at hcode
    rw [hcons,List.length_append] at hindex
    have hfirst := Kind.read_code (h field List.mem_cons_self) hcode (by omega)
    have hnext : (bits buf).drop (index + (field.1.code field.2).length) = codes fields ++ rest := by
      rw [← List.drop_drop,hcode,List.drop_left]
    have hrest := ih (fun field hf => h field (List.mem_cons_of_mem _ hf)) hnext (by omega)
    rw [List.map_cons,List.map_cons,readAll,hfirst]
    dsimp only
    rw [hrest,hcons,List.length_append,Nat.add_assoc]

end ZenMedia.H264
