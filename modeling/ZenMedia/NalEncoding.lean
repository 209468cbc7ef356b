import ZenMedia.ByteStuffing

/-! How x264 hands out its NAL units: each is escaped, gets its header and a start code or
its size in front, and all go into one buffer, the size of which is guessed before. -/
namespace ZenMedia.X264
open ByteStuffing

/-- The fields of `x264_nal_t` that the encapsulation reads. -/
structure Nal where
  i_ref_idc : ℕ
  i_type : ℕ
  b_long_startcode : Bool
  payload : List UInt8
  i_padding : ℕ
  deriving DecidableEq, Repr

structure Param where
  b_annexb : Bool
  i_avcintra_class : ℕ
  deriving DecidableEq, Repr

def NAL_SPS : ℕ := 7
def NAL_PPS : ℕ := 8
def NALU_OVERHEAD : ℕ := 5

/-- `nal_escape_c`; `stuff` is its loop, with `dst[-2]` and `dst[-1]`. -/
def nalEscape : List UInt8 → List UInt8
  | a :: b :: src => a :: b :: stuff a b src
  | src => src

namespace Nal
variable (nal : Nal)

def header : UInt8 := UInt8.ofNat (nal.i_ref_idc <<< 5 ||| nal.i_type)

/-- The NAL unit itself, as a decoder gets it. -/
def unit : List UInt8 := nal.header :: nalEscape nal.payload

def startcode : List UInt8 := if nal.b_long_startcode then [0,0,0,1] else [0,0,1]

end Nal

/-- `x264_nal_encode`, with what it leaves in `nal->p_payload`. -/
def nalEncode (param : Param) (nal : Nal) : List UInt8 :=
  let front := if param.b_annexb then nal.startcode else List.replicate 4 0
  let written := front ++ nal.unit
  let padding := if param.i_avcintra_class ≠ 0 then
    nal.payload.length + nal.i_padding + NALU_OVERHEAD - written.length else 0
  let padded := written ++ List.replicate padding 0
  if param.b_annexb then padded
  else bigEndian 4 (padded.length - 4) ++ padded.drop 4

/-- NAL number `i` gets a long start code. -/
def Nal.isLong (nal : Nal) (param : Param) (i : ℕ) : Bool :=
  i = 0 || nal.i_type = NAL_SPS || nal.i_type = NAL_PPS || param.i_avcintra_class ≠ 0

/-- The loop of `encoder_encapsulate_nals` from NAL number `i` on. -/
def encapsulate (param : Param) : ℕ → List Nal → List UInt8
  | _, [] => []
  | i, nal :: nals =>
    nalEncode param { nal with b_long_startcode := nal.isLong param i } ++
      encapsulate param (i + 1) nals

/-- What an `int` keeps of a sum or a product. -/
def int (x : ℤ) : ℤ := x.bmod (2 ^ 32)

/-- The size that `encoder_encapsulate_nals` has its buffer checked against, with what the
`start` units before these take of it. -/
def necessarySize (previous_nal_size start : ℕ) (nals : List Nal) : ℤ :=
  let nal_size := nals.foldl (fun nal_size nal => int (nal_size + nal.payload.length)) 0
  let necessary_size := int (int (int (int (previous_nal_size + (int (nal_size * 3)).tdiv 2) +
    int (((start + nals.length : ℕ) : ℤ) * 4)) + 4) + 64)
  nals.foldl (fun necessary_size nal => int (necessary_size + nal.i_padding)) necessary_size

/-- The sizes that are computed stay within an `int`. -/
def WithinInt (previous_nal_size start : ℕ) (nals : List Nal) : Prop :=
  previous_nal_size + 3 * (nals.map fun nal => nal.payload.length).sum + 4 * (start + nals.length) + 68 +
    (nals.map Nal.i_padding).sum < 2 ^ 31

/-! ### The size of the buffer -/

lemma pending_length (p q : UInt8) : (pending p q).length ≤ 2 := by
  unfold pending
  split_ifs <;> simp

/-- Between two escapes come at least two bytes. -/
lemma stuff_length (p q : UInt8) (src : List UInt8) :
    2 * (stuff p q src).length ≤ 3 * src.length + ((pending p q).length - 1) := by
  induction src generalizing p q with
  | nil => simp [stuff]
  | cons b src ih =>
    rw [stuff]
    split_ifs with hescape
    · have hnext := ih 3 b
      have hone : (pending 3 b).length ≤ 1 := by
        by_cases hb : b = 0
        · rw [hb,pending_zero (by decide)]
          exact le_refl 1
        · rw [pending_ne hb]
          exact Nat.zero_le 1
      have htwo : (pending p q).length = 2 := by
        simp only [Bool.and_eq_true,decide_eq_true_eq] at hescape
        simp [pending,hescape]
      simp only [List.length_cons]
      omega
    · have hnext := ih q b
      have htwo := pending_length q b
      simp only [List.length_cons]
      omega

lemma nalEscape_length {src : List UInt8} (h : src ≠ []) :
    2 * (nalEscape src).length < 3 * src.length := by
  rcases src with _ | ⟨a,_ | ⟨b,src⟩⟩
  · exact absurd rfl h
  · simp [nalEscape]
  · have hstuff := stuff_length a b src
    have htwo := pending_length a b
    simp only [nalEscape,List.length_cons]
    omega

lemma nalEncode_length (param : Param) (nal : Nal) (h : nal.payload ≠ []) :
    2 * (nalEncode param nal).length ≤ 3 * nal.payload.length + 9 + 2 * nal.i_padding := by
  have hescape := nalEscape_length h
  have hpos : 0 < nal.payload.length := List.length_pos_of_ne_nil h
  have hstart : nal.startcode.length ≤ 4 := by
    unfold Nal.startcode
    split <;> simp
  have hunit : nal.unit.length = (nalEscape nal.payload).length + 1 := rfl
  simp only [nalEncode,NALU_OVERHEAD]
  split_ifs <;> simp only [List.length_append,List.length_replicate,List.length_drop,
    bigEndian_length,hunit] <;> omega

lemma encapsulate_length (param : Param) (i : ℕ) (nals : List Nal) (h : ∀ nal ∈ nals, nal.payload ≠ []) :
    2 * (encapsulate param i nals).length ≤ 3 * (nals.map fun nal => nal.payload.length).sum +
      9 * nals.length + 2 * (nals.map Nal.i_padding).sum := by
  induction nals generalizing i with
  | nil => simp [encapsulate]
  | cons nal nals ih =>
    have hrest := ih (i + 1) fun nal hnal => h nal (List.mem_cons_of_mem _ hnal)
    have hpayload := h nal List.mem_cons_self
    rw [encapsulate,List.length_append]
    refine le_trans (Nat.mul_add 2 _ _).le ?_
    have hnal := nalEncode_length param { nal with b_long_startcode := nal.isLong param i } hpayload
    simp only [List.map_cons,List.sum_cons,List.length_cons]
    dsimp only at hnal
    omega

/-- A parameter set of a single byte. -/
def shortSps : Nal := ⟨3,NAL_SPS,true,[0x80],0⟩

lemma encapsulate_short_length (param : Param) (i n : ℕ) :
    (encapsulate param i (List.replicate n shortSps)).length = 6 * n := by
  induction n generalizing i with
  | zero => rfl
  | succ n ih =>
    have hlong : shortSps.isLong param i = true := by simp [Nal.isLong,shortSps]
    have hnal : (nalEncode param shortSps).length = 6 := by
      by_cases hannexb : param.b_annexb = true <;>
        simp [nalEncode,shortSps,Nal.startcode,Nal.unit,nalEscape,NALU_OVERHEAD,hannexb]
    rw [List.replicate_succ,encapsulate,List.length_append,ih,hlong]
    change (nalEncode param shortSps).length + 6 * n = _
    rw [hnal]
    omega

lemma int_eq {x : ℤ} (hlow : 0 ≤ x) (hhigh : x < 2 ^ 31) : int x = x := by
  apply Int.bmod_eq_of_le <;> omega

/-- A sum of sizes that stays within an `int`. -/
lemma foldl_int (nals : List Nal) (size : Nal → ℕ) (first : ℕ)
    (h : first + (nals.map size).sum < 2 ^ 31) :
    nals.foldl (fun sum nal => int (sum + size nal)) (first : ℤ) = (first + (nals.map size).sum : ℕ) := by
  induction nals generalizing first with
  | nil => simp
  | cons nal nals ih =>
    rw [List.map_cons,List.sum_cons] at h ⊢
    have hnext : int ((first : ℤ) + size nal) = ((first + size nal : ℕ) : ℤ) := by
      rw [int_eq (by omega) (by omega),Nat.cast_add]
    rw [List.foldl_cons,hnext,ih _ (by omega),Nat.add_assoc]

lemma necessarySize_eq {previous_nal_size start : ℕ} {nals : List Nal}
    (h : WithinInt previous_nal_size start nals) :
    necessarySize previous_nal_size start nals =
      (previous_nal_size + (nals.map fun nal => nal.payload.length).sum * 3 / 2 +
        (start + nals.length) * 4 + 4 + 64 + (nals.map Nal.i_padding).sum : ℕ) := by
  unfold WithinInt at h
  have hsize := foldl_int nals (fun nal => nal.payload.length) 0 (by omega)
  rw [Nat.cast_zero,Nat.zero_add] at hsize
  have hpadding := foldl_int nals Nal.i_padding (previous_nal_size +
    (nals.map fun nal => nal.payload.length).sum * 3 / 2 + (start + nals.length) * 4 + 4 + 64) (by omega)
  rw [← hpadding,necessarySize,hsize]
  generalize (nals.map fun nal => nal.payload.length).sum = payloads at h ⊢
  have hhalf : ((payloads : ℤ) * 3).tdiv 2 = ((payloads * 3 / 2 : ℕ) : ℤ) := by
    rw [Int.tdiv_eq_ediv_of_nonneg (by omega)]
    omega
  have hunits : ((start + nals.length : ℕ) : ℤ) * 4 = (((start + nals.length) * 4 : ℕ) : ℤ) := by
    rw [Nat.cast_mul]
    rfl
  have hescaped : payloads * 3 / 2 ≤ 3 * payloads := by omega
  have hsum (x y : ℕ) (hle : x + y < 2 ^ 31) : int ((x : ℤ) + y) = ((x + y : ℕ) : ℤ) := by
    rw [int_eq (by omega) (by omega),Nat.cast_add]
  rw [int_eq (by omega : 0 ≤ (payloads : ℤ) * 3) (by omega),hhalf,hunits,
    int_eq (by omega : 0 ≤ (((start + nals.length) * 4 : ℕ) : ℤ)) (by omega)]
  generalize payloads * 3 / 2 = escaped at hescaped ⊢
  rw [hsum previous_nal_size escaped (by omega),hsum _ ((start + nals.length) * 4) (by omega)]
  generalize nals.length = units at h ⊢
  have hwithin : previous_nal_size + escaped + (start + units) * 4 + 4 + 64 < 2 ^ 31 := by omega
  have hfour := hsum (previous_nal_size + escaped + (start + units) * 4) 4 (by omega)
  have hrest := hsum (previous_nal_size + escaped + (start + units) * 4 + 4) 64 hwithin
  rw [Nat.cast_ofNat] at hfour hrest
  rw [hfour,hrest]

/-- The buffer is large enough for so many NAL units, whatever is in them, and for no more. -/
theorem encapsulate_fits_iff (param : Param) (previous_nal_size start n : ℕ)
    (hint : previous_nal_size + 3 * n + 4 * (start + n) + 68 < 2 ^ 31) :
    (∀ nals : List Nal, nals.length = n → (∀ nal ∈ nals, nal.payload ≠ []) →
      WithinInt previous_nal_size start nals →
      ((previous_nal_size + (encapsulate param start nals).length : ℕ) : ℤ) ≤
        necessarySize previous_nal_size start nals) ↔ n ≤ 136 + 8 * start := by
  constructor
  · intro hfits
    have hwithin : WithinInt previous_nal_size start (List.replicate n shortSps) := by
      simpa [WithinInt,shortSps] using hint
    have hshort := hfits (List.replicate n shortSps) List.length_replicate (fun nal hnal => by
      rw [List.eq_of_mem_replicate hnal]
      simp [shortSps]) hwithin
    rw [encapsulate_short_length,necessarySize_eq hwithin] at hshort
    simp only [List.map_replicate,List.sum_replicate,List.length_replicate,
      shortSps,List.length_singleton,smul_eq_mul,Nat.mul_one,Nat.mul_zero] at hshort
    omega
  · rintro hn nals rfl hnals hwithin
    have hlength := encapsulate_length param start nals hnals
    rw [necessarySize_eq hwithin]
    omega

/-- Two parameter sets that are there already, and a slice that is all escapes. -/
theorem encapsulate_fits_escaped :
    ((11 + (encapsulate ⟨true,0⟩ 2 [⟨3,5,true,[1,0,0,1,0,0,2,0,0,128],0⟩]).length : ℕ) : ℤ) ≤
      necessarySize 11 2 [⟨3,5,true,[1,0,0,1,0,0,2,0,0,128],0⟩] :=
  (encapsulate_fits_iff ⟨true,0⟩ 11 2 1 (by decide)).mpr (by decide)
    [⟨3,5,true,[1,0,0,1,0,0,2,0,0,128],0⟩] rfl (by simp) (by simp [WithinInt])

end ZenMedia.X264
