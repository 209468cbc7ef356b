import ZenMedia.StartCodeSearch

/-! How the H.264 decoder reads a NAL unit: it looks for the first place where the unit may not
go on as it stands, by one of three scans that the configuration chooses, and copies from
there on byte by byte. -/
namespace ZenMedia.H264
open ByteStuffing Avc

/-- `AV_RN64A` on a machine that stores the least significant byte first. -/
def word64 (bytes : List UInt8) (p : ℕ) : BitVec 64 :=
  BitVec.ofNat 64 ((word bytes p).toNat + 4294967296 * (word bytes (p + 4)).toNat)

/-- `STARTCODE_TEST`: the length of the unit when the scan stops at `i`. -/
def startcodeTest (src : List UInt8) (length i : ℕ) : Option ℕ :=
  if i + 2 < length && byteAt src (i + 1) = 0 && byteAt src (i + 2) ≤ 3 then
    if byteAt src (i + 2) ≠ 3 && byteAt src (i + 2) ≠ 0 then some i else some length
  else none

/-- `FIND_FIRST_ZERO` -/
def findFirstZero (src : List UInt8) (i : ℕ) : ℕ :=
  let i := if 0 < i && byteAt src i = 0 then i - 1 else i
  i + ((src.drop i).takeWhile (· ≠ 0)).length

/-- The scan by bytes from `i` on, for `n` rounds at most. -/
def scanBytes (src : List UInt8) (length : ℕ) : ℕ → ℕ → ℕ × ℕ
  | 0, i => (i,length)
  | n + 1, i =>
    if i + 1 < length then
      if byteAt src i ≠ 0 then scanBytes src length n (i + 2)
      else
        let i := if 0 < i && byteAt src (i - 1) = 0 then i - 1 else i
        match startcodeTest src length i with
        | some length => (i,length)
        | none => scanBytes src length n (i + 2)
    else (i,length)

/-- The scan by words: `stride` bytes on where the word at `i` shows no zero, else two bytes
behind the zero that is found. -/
def scanWords (zero : ℕ → Bool) (stride : ℕ) (src : List UInt8) (length : ℕ) : ℕ → ℕ → ℕ × ℕ
  | 0, i => (i,length)
  | n + 1, i =>
    if i + 1 < length then
      if !zero i then scanWords zero stride src length n (i + stride)
      else
        let i := findFirstZero src i
        match startcodeTest src length i with
        | some length => (i,length)
        | none => scanWords zero stride src length n (i + 2)
    else (i,length)

def zero32 (src : List UInt8) (i : ℕ) : Bool :=
  (~~~word src i &&& (word src i - 0x01000101#32)) &&& 0x80008080#32 ≠ 0#32

def zero64 (src : List UInt8) (i : ℕ) : Bool :=
  (~~~word64 src i &&& (word64 src i - 0x0100010001000101#64)) &&& 0x8000800080008080#64 ≠ 0#64

/-- Neither `HAVE_FAST_UNALIGNED`, only it, or `HAVE_FAST_64BIT` as well. -/
inductive Scan where
  | bytes
  | fast32
  | fast64
  deriving DecidableEq, Repr

def Scan.run (scan : Scan) (src : List UInt8) (length : ℕ) : ℕ × ℕ :=
  match scan with
  | bytes => scanBytes src length length 0
  | fast32 => scanWords (zero32 src) 5 src length length 0
  | fast64 => scanWords (zero64 src) 9 src length length 0

/-- The loop that removes escapes, from `si` on for `n` rounds at most: what it writes, and
where it ends. -/
def copyLoop (src : List UInt8) (length : ℕ) : ℕ → ℕ → List UInt8 × ℕ
  | 0, si => ([],si)
  | n + 1, si =>
    if si + 2 < length then
      if 3 < byteAt src (si + 2) then
        let (dst,last) := copyLoop src length n (si + 3)
        (byteAt src si :: byteAt src (si + 1) :: byteAt src (si + 2) :: dst,last)
      else if byteAt src si = 0 && byteAt src (si + 1) = 0 && byteAt src (si + 2) ≠ 0 then
        if byteAt src (si + 2) = 3 then
          let (dst,last) := copyLoop src length n (si + 3)
          (0 :: 0 :: dst,last)
        else ([],si)
      else
        let (dst,last) := copyLoop src length n (si + 1)
        (byteAt src si :: dst,last)
    else ((src.take length).drop si,max si length)

/-- What `ff_h264_decode_nal` sets and returns. -/
structure Decoded where
  nal_ref_idc : ℕ
  nal_unit_type : ℕ
  dst : List UInt8
  consumed : ℕ
  deriving DecidableEq, Repr

/-- `ff_h264_decode_nal` of the `length` bytes that `src` begins with. -/
def decodeNal (scan : Scan) (src : List UInt8) (length : ℕ) : Decoded :=
  let nal_ref_idc := (byteAt src 0).toNat >>> 5
  let nal_unit_type := (byteAt src 0).toNat &&& 0x1F
  let src := src.drop 1
  let (i,length) := scan.run src (length - 1)
  if length ≤ i + 1 then ⟨nal_ref_idc,nal_unit_type,src.take length,length + 1⟩
  else
    let (dst,si) := copyLoop src length length i
    ⟨nal_ref_idc,nal_unit_type,src.take i ++ dst,si + 1⟩

/-! ### The scans -/

/-- The unit may not go on at `i` as it stands. -/
def Marked (src : List UInt8) (length i : ℕ) : Prop :=
  i + 2 < length ∧ byteAt src i = 0 ∧ byteAt src (i + 1) = 0 ∧ byteAt src (i + 2) ≤ 3

def Unmarked (src : List UInt8) (length i : ℕ) : Prop := ∀ j < i, ¬ Marked src length j

lemma Unmarked.mono {src : List UInt8} {length i k : ℕ} (h : Unmarked src length i) (hk : k ≤ i) :
    Unmarked src length k := by
  intro j hj
  exact h j (by omega)

lemma Unmarked.extend {src : List UInt8} {length i k : ℕ} (h : Unmarked src length i)
    (hnext : ∀ j, i ≤ j → j < k → ¬ Marked src length j) : Unmarked src length k := by
  intro j hj
  by_cases hi : j < i
  · exact h j hi
  · exact hnext j (not_lt.mp hi) hj

lemma not_marked_here {src : List UInt8} {length j : ℕ} (h : byteAt src j ≠ 0) :
    ¬ Marked src length j := by
  intro hmark
  exact h hmark.2.1

lemma not_marked_next {src : List UInt8} {length j : ℕ} (h : byteAt src (j + 1) ≠ 0) :
    ¬ Marked src length j := by
  intro hmark
  exact h hmark.2.2.1

/-- What a scan leaves: the first mark and the length it gives the unit, or no mark. -/
def Scanned (src : List UInt8) (length : ℕ) (found : ℕ × ℕ) : Prop :=
  Unmarked src length found.1 ∧
    (Marked src length found.1 ∧ startcodeTest src length found.1 = some found.2 ∨
      length ≤ found.1 + 1 ∧ found.2 = length)

lemma startcodeTest_none {src : List UInt8} {length i : ℕ} (h : startcodeTest src length i = none) :
    ¬ Marked src length i := by
  rintro ⟨hi,-,hone,htwo⟩
  unfold startcodeTest at h
  rw [if_pos (by simp [hi,hone,htwo])] at h
  split at h <;> cases h

lemma startcodeTest_some {src : List UInt8} {length i l : ℕ} (hzero : byteAt src i = 0)
    (h : startcodeTest src length i = some l) : Marked src length i := by
  unfold startcodeTest at h
  split at h
  · rename_i htest
    simp only [Bool.and_eq_true,decide_eq_true_eq] at htest
    exact ⟨htest.1.1,hzero,htest.1.2,htest.2⟩
  · cases h

/-- A scan that is over without a mark. -/
lemma scanned_end {src : List UInt8} {length i : ℕ} (h : Unmarked src length (i - 1))
    (hi : length ≤ i + 1) : Scanned src length (i,length) := by
  refine ⟨?_,.inr ⟨hi,rfl⟩⟩
  intro j hj hmark
  exact h j (by have := hmark.1; omega) hmark

/-- A zero that is looked at: the scan is over, or there is no mark up to it. -/
lemma scanned_zero {src : List UInt8} {length i : ℕ} (h : Unmarked src length i)
    (hzero : byteAt src i = 0) :
    (∃ l, startcodeTest src length i = some l ∧ Scanned src length (i,l)) ∨
      startcodeTest src length i = none ∧ Unmarked src length (i + 1) := by
  cases htest : startcodeTest src length i with
  | some l => exact .inl ⟨l,rfl,h,.inl ⟨startcodeTest_some hzero htest,htest⟩⟩
  | none =>
    refine .inr ⟨rfl,h.extend fun j hj hji => ?_⟩
    have hij : j = i := by omega
    rw [hij]
    exact startcodeTest_none htest

lemma scanBytes_scanned (src : List UInt8) (length n i : ℕ) (hn : length ≤ i + n)
    (h : Unmarked src length (i - 1)) : Scanned src length (scanBytes src length n i) := by
  induction n generalizing i with
  | zero => exact scanned_end h (by omega)
  | succ n ih =>
    rw [scanBytes]
    by_cases hi : i + 1 < length
    · rw [if_pos hi]
      by_cases hzero : byteAt src i = 0
      · rw [if_neg (not_not_intro hzero)]
        obtain ⟨k,hk,hik,hzk,hclear⟩ : ∃ k, (if 0 < i && byteAt src (i - 1) = 0 then i - 1 else i) = k ∧
            i ≤ k + 1 ∧ byteAt src k = 0 ∧ Unmarked src length k := by
          split_ifs with hlast
          · simp only [Bool.and_eq_true,decide_eq_true_eq] at hlast
            exact ⟨i - 1,rfl,by omega,hlast.2,h⟩
          · refine ⟨i,rfl,by omega,hzero,h.extend fun j hj hji => ?_⟩
            have hij : j = i - 1 := by omega
            rw [hij]
            apply not_marked_here
            intro hz
            exact hlast (by simp [hz]; omega)
        rcases scanned_zero hclear hzk with ⟨l,htest,hdone⟩ | ⟨htest,hnext⟩
        · simp only [hk,htest]
          exact hdone
        · simp only [hk,htest]
          exact ih (k + 2) (by omega) hnext
      · rw [if_pos hzero]
        apply ih (i + 2) (by omega)
        refine h.extend fun j hj hji => ?_
        by_cases hij : j = i
        · rw [hij]
          exact not_marked_here hzero
        · have hij' : j + 1 = i := by omega
          exact not_marked_next (by rwa [hij'])
    · rw [if_neg hi]
      exact scanned_end h (by omega)

lemma byteAt_drop (src : List UInt8) (i j : ℕ) : byteAt (src.drop i) j = byteAt src (i + j) := by
  simp [byteAt]

lemma takeWhile_spec (src : List UInt8) :
    byteAt src (src.takeWhile (· ≠ 0)).length = 0 ∧
      ∀ j < (src.takeWhile (· ≠ 0)).length, byteAt src j ≠ 0 := by
  induction src with
  | nil => simp [byteAt]
  | cons b src ih =>
    by_cases hb : b = 0
    · simp [hb,byteAt]
    · have htake : (b :: src).takeWhile (· ≠ 0) = b :: src.takeWhile (· ≠ 0) := by simp [hb]
      rw [htake,List.length_cons,byteAt_cons]
      refine ⟨ih.1,fun j hj => ?_⟩
      cases j with
      | zero => exact hb
      | succ j =>
        rw [byteAt_cons]
        exact ih.2 j (by omega)

/-- Up to the zero that is found, there is no mark. -/
lemma findFirstZero_spec {src : List UInt8} {length i : ℕ} (h : Unmarked src length (i - 1)) :
    i ≤ findFirstZero src i + 1 ∧ byteAt src (findFirstZero src i) = 0 ∧
      Unmarked src length (findFirstZero src i) := by
  unfold findFirstZero
  split_ifs with hback <;> dsimp only
  · simp only [Bool.and_eq_true,decide_eq_true_eq] at hback
    obtain ⟨hzero,hbefore⟩ := takeWhile_spec (src.drop (i - 1))
    rw [byteAt_drop] at hzero
    refine ⟨by omega,hzero,h.extend fun j hj hjk => ?_⟩
    obtain ⟨d,rfl⟩ := Nat.exists_eq_add_of_le hj
    apply not_marked_here
    rw [← byteAt_drop]
    exact hbefore d (by omega)
  · obtain ⟨hzero,hbefore⟩ := takeWhile_spec (src.drop i)
    rw [byteAt_drop] at hzero
    refine ⟨by omega,hzero,h.extend fun j hj hjk => ?_⟩
    by_cases hji : i ≤ j
    · obtain ⟨d,rfl⟩ := Nat.exists_eq_add_of_le hji
      apply not_marked_here
      rw [← byteAt_drop]
      exact hbefore d (by omega)
    · have hj' : j + 1 = i := by omega
      apply not_marked_next
      rw [hj']
      intro hz
      exact hback (by simp [hz]; omega)

/-- A scan by words, given that a word it passes over has no mark. -/
lemma scanWords_scanned {zero : ℕ → Bool} {stride : ℕ} {src : List UInt8} (hstride : 0 < stride)
    (hzero : ∀ i, zero i = false → ∀ j, i ≤ j + 1 → j + 1 < i + stride →
      byteAt src j ≠ 0 ∨ byteAt src (j + 1) ≠ 0)
    (length n i : ℕ) (hn : length ≤ i + n) (h : Unmarked src length (i - 1)) :
    Scanned src length (scanWords zero stride src length n i) := by
  induction n generalizing i with
  | zero => exact scanned_end h (by omega)
  | succ n ih =>
    rw [scanWords]
    by_cases hi : i + 1 < length
    · rw [if_pos hi]
      cases hword : zero i with
      | false =>
        rw [if_pos (by rfl)]
        apply ih (i + stride) (by omega)
        refine h.extend fun j hj hji => ?_
        rcases hzero i hword j (by omega) (by omega) with hone | htwo
        · exact not_marked_here hone
        · exact not_marked_next htwo
      | true =>
        rw [if_neg (by simp)]
        obtain ⟨hik,hzk,hclear⟩ := findFirstZero_spec h
        rcases scanned_zero hclear hzk with ⟨l,htest,hdone⟩ | ⟨htest,hnext⟩
        · simp only [htest]
          exact hdone
        · simp only [htest]
          exact ih _ (by omega) hnext
    · rw [if_neg hi]
      exact scanned_end h (by omega)

/-! ### Looking at a word -/

lemma word_toNat (bytes : List UInt8) (p : ℕ) : (word bytes p).toNat =
    (byteAt bytes p).toNat + 256 * (byteAt bytes (p + 1)).toNat +
      65536 * (byteAt bytes (p + 2)).toNat + 16777216 * (byteAt bytes (p + 3)).toNat := by
  have h (i : ℕ) : (byteAt bytes i).toNat < 256 := UInt8.toNat_lt _
  have h₀ := h p
  have h₁ := h (p + 1)
  have h₂ := h (p + 2)
  have h₃ := h (p + 3)
  rw [word,BitVec.toNat_ofNat]
  omega

lemma zero32_of_zero {src : List UInt8} {i : ℕ}
    (h : byteAt src i = 0 ∨ byteAt src (i + 1) = 0 ∨ byteAt src (i + 3) = 0) :
    zero32 src i = true := by
  have hbyte (i : ℕ) : (byteAt src i).toNat < 256 := UInt8.toNat_lt _
  have h₀ := hbyte i
  have h₁ := hbyte (i + 1)
  have h₂ := hbyte (i + 2)
  have h₃ := hbyte (i + 3)
  have hx := word_toNat src i
  simp only [← UInt8.toNat_inj,UInt8.toNat_zero] at h
  rw [zero32,decide_eq_true_eq,BitVec.and_comm (~~~_)]
  generalize word src i = x at hx
  have hy : (x - 0x01000101#32).toNat = (4278189823 + x.toNat) % 4294967296 := by
    rw [BitVec.toNat_sub]
    rfl
  rw [hx] at hy
  by_cases hz₀ : (byteAt src i).toNat = 0
  · exact shows_of_bit (k := 7) rfl (by rw [hx]; omega) (by rw [hy]; omega)
  by_cases hz₁ : (byteAt src (i + 1)).toNat = 0
  · exact shows_of_bit (k := 15) rfl (by rw [hx]; omega) (by rw [hy]; omega)
  · exact shows_of_bit (k := 31) rfl (by rw [hx]; omega) (by rw [hy]; omega)

lemma word64_toNat (bytes : List UInt8) (p : ℕ) : (word64 bytes p).toNat =
    (byteAt bytes p).toNat + 256 * (byteAt bytes (p + 1)).toNat +
      65536 * (byteAt bytes (p + 2)).toNat + 16777216 * (byteAt bytes (p + 3)).toNat +
      4294967296 * ((byteAt bytes (p + 4)).toNat + 256 * (byteAt bytes (p + 5)).toNat +
        65536 * (byteAt bytes (p + 6)).toNat + 16777216 * (byteAt bytes (p + 7)).toNat) := by
  have hlow := (word bytes p).isLt
  have hhigh := (word bytes (p + 4)).isLt
  rw [word64,BitVec.toNat_ofNat,Nat.mod_eq_of_lt (by omega),word_toNat,word_toNat]

lemma zero64_of_zero {src : List UInt8} {i : ℕ}
    (h : byteAt src i = 0 ∨ byteAt src (i + 1) = 0 ∨ byteAt src (i + 3) = 0 ∨
      byteAt src (i + 5) = 0 ∨ byteAt src (i + 7) = 0) :
    zero64 src i = true := by
  have hbyte (i : ℕ) : (byteAt src i).toNat < 256 := UInt8.toNat_lt _
  have h₀ := hbyte i
  have h₁ := hbyte (i + 1)
  have h₂ := hbyte (i + 2)
  have h₃ := hbyte (i + 3)
  have h₄ := hbyte (i + 4)
  have h₅ := hbyte (i + 5)
  have h₆ := hbyte (i + 6)
  have h₇ := hbyte (i + 7)
  have hx := word64_toNat src i
  simp only [← UInt8.toNat_inj,UInt8.toNat_zero] at h
  rw [zero64,decide_eq_true_eq,BitVec.and_comm (~~~_)]
  generalize word64 src i = x at hx
  have hy : (x - 0x0100010001000101#64).toNat =
      (18374685380143218431 + x.toNat) % 18446744073709551616 := by
    rw [BitVec.toNat_sub]
    rfl
  rw [hx] at hy
  by_cases hz₀ : (byteAt src i).toNat = 0
  · exact shows_of_bit (k := 7) rfl (by rw [hx]; omega) (by rw [hy]; omega)
  by_cases hz₁ : (byteAt src (i + 1)).toNat = 0
  · exact shows_of_bit (k := 15) rfl (by rw [hx]; omega) (by rw [hy]; omega)
  by_cases hz₃ : (byteAt src (i + 3)).toNat = 0
  · exact shows_of_bit (k := 31) rfl (by rw [hx]; omega) (by rw [hy]; omega)
  by_cases hz₅ : (byteAt src (i + 5)).toNat = 0
  · exact shows_of_bit (k := 47) rfl (by rw [hx]; omega) (by rw [hy]; omega)
  · exact shows_of_bit (k := 63) rfl (by rw [hx]; omega) (by rw [hy]; omega)

/-- Each of the scans finds the first mark. -/
lemma Scan.run_scanned (scan : Scan) (src : List UInt8) (length : ℕ) :
    Scanned src length (scan.run src length) := by
  have hstart : Unmarked src length (0 - 1) := by
    intro j hj
    omega
  cases scan with
  | bytes => exact scanBytes_scanned src length length 0 (by omega) hstart
  | fast32 =>
    apply scanWords_scanned (by decide) _ length length 0 (by omega) hstart
    intro i hzero j hj hji
    by_contra hmark
    simp only [not_or,not_not] at hmark
    have hshown : zero32 src i = true := by
      apply zero32_of_zero
      rcases (by omega : i = j + 1 ∨ i = j ∨ i + 1 = j ∨ i + 2 = j ∨ i + 3 = j) with
        rfl | rfl | rfl | rfl | rfl <;> simp [hmark]
    rw [hzero] at hshown
    cases hshown
  | fast64 =>
    apply scanWords_scanned (by decide) _ length length 0 (by omega) hstart
    intro i hzero j hj hji
    by_contra hmark
    simp only [not_or,not_not] at hmark
    have hshown : zero64 src i = true := by
      apply zero64_of_zero
      rcases (by omega : i = j + 1 ∨ i = j ∨ i + 1 = j ∨ i + 2 = j ∨ i + 3 = j ∨ i + 4 = j ∨
        i + 5 = j ∨ i + 6 = j ∨ i + 7 = j) with
        rfl | rfl | rfl | rfl | rfl | rfl | rfl | rfl | rfl <;> simp [hmark]
    rw [hzero] at hshown
    cases hshown

/-! ### The bytes of a unit -/

section Bytes
variable {src : List UInt8} {length : ℕ} (hlength : length ≤ src.length)
include hlength

lemma drop_byteAt {i : ℕ} (hi : i < length) :
    (src.take length).drop i = byteAt src i :: (src.take length).drop (i + 1) := by
  have hi' : i < (src.take length).length := by
    rw [List.length_take]
    omega
  rw [List.drop_eq_getElem_cons hi',List.getElem_take,byteAt,List.getD_eq_getElem _ _ (by omega)]

/-- Where three bytes are left, they are the next ones. -/
lemma drop_three {i : ℕ} (hi : i + 2 < length) : (src.take length).drop i =
    byteAt src i :: byteAt src (i + 1) :: byteAt src (i + 2) :: (src.take length).drop (i + 3) := by
  rw [drop_byteAt hlength (by omega : i < length),drop_byteAt hlength (by omega : i + 1 < length),
    drop_byteAt hlength hi]

lemma marked_iff (i : ℕ) : marked ((src.take length).drop i) = true ↔ Marked src length i := by
  by_cases hi : i + 2 < length
  · rw [drop_three hlength hi]
    simp [marked,Marked,hi,and_assoc]
  · have hlen : ((src.take length).drop i).length ≤ 2 := by
      rw [List.length_drop,List.length_take]
      omega
    rcases hdrop : (src.take length).drop i with _ | ⟨a,_ | ⟨b,_ | ⟨c,rest⟩⟩⟩
    · simp [marked,Marked,hi]
    · simp [marked,Marked,hi]
    · simp [marked,Marked,hi]
    · rw [hdrop] at hlen
      simp at hlen

/-- Up to `i`, the unit is read as it stands. -/
lemma Unmarked.read {i : ℕ} (h : Unmarked src length i) (hi : i ≤ length) :
    unstuff (src.take length) = src.take i ++ unstuff ((src.take length).drop i) ∧
      unitEnd (src.take length) = i + unitEnd ((src.take length).drop i) := by
  have htake : (src.take length).take i = src.take i := by
    rw [List.take_take,min_eq_left hi]
  rw [← htake]
  apply unstuff_drop
  · rw [List.length_take]
    omega
  · intro j hj
    rw [Bool.eq_false_iff,ne_eq,marked_iff hlength]
    exact h j hj

/-- The loop that removes escapes reads what is left of the unit. -/
lemma copyLoop_eq (n si : ℕ) (hn : length ≤ si + n) (hsi : si ≤ length) :
    copyLoop src length n si =
      (unstuff ((src.take length).drop si),si + unitEnd ((src.take length).drop si)) := by
  induction n generalizing si with
  | zero =>
    have hnil : (src.take length).drop si = [] := by
      rw [List.drop_eq_nil_iff,List.length_take]
      omega
    rw [hnil]
    rfl
  | succ n ih =>
    rw [copyLoop]
    by_cases hi : si + 2 < length
    · rw [if_pos hi]
      rw [drop_three hlength hi]
      by_cases hlarge : 3 < byteAt src (si + 2)
      · rw [if_pos hlarge,ih (si + 3) (by omega) (by omega)]
        obtain ⟨hread,hend⟩ := unstuff_large hlarge (byteAt src si) (byteAt src (si + 1))
          ((src.take length).drop (si + 3))
        rw [hread,hend]
        simp only [Prod.mk.injEq,true_and]
        omega
      · rw [if_neg hlarge]
        by_cases hzeros : byteAt src si = 0 ∧ byteAt src (si + 1) = 0 ∧ byteAt src (si + 2) ≠ 0
        · rw [if_pos (by simp [hzeros]),hzeros.1,hzeros.2.1]
          by_cases hescape : byteAt src (si + 2) = 3
          · rw [if_pos hescape,hescape,ih (si + 3) (by omega) (by omega),unstuff_escape,unitEnd_escape]
            simp only [Prod.mk.injEq,true_and]
            omega
          · rw [if_neg hescape]
            have hcode := small_cases (UInt8.not_lt.mp hlarge) hzeros.2.2 hescape
            obtain ⟨hread,hend⟩ := unstuff_startcode hcode ((src.take length).drop (si + 3))
            rw [hread,hend]
            rfl
        · rw [if_neg (by simpa [and_assoc] using hzeros),ih (si + 1) (by omega) (by omega)]
          obtain ⟨hread,hend⟩ := unstuff_plain hzeros ((src.take length).drop (si + 3))
          have hnext : (src.take length).drop (si + 1) =
              byteAt src (si + 1) :: byteAt src (si + 2) :: (src.take length).drop (si + 3) := by
            rw [drop_byteAt hlength (by omega : si + 1 < length),drop_byteAt hlength hi]
          rw [hread,hend,hnext]
          simp only [Prod.mk.injEq,true_and]
          omega
    · rw [if_neg hi]
      have hlen : ((src.take length).drop si).length = length - si := by
        rw [List.length_drop,List.length_take,min_eq_left hlength]
      obtain ⟨hread,hend⟩ := unstuff_short (by omega : ((src.take length).drop si).length ≤ 2)
      rw [hread,hend,hlen]
      simp only [Prod.mk.injEq,true_and]
      omega

/-- What the scan has found goes with the unit. -/
lemma scanned_read {i l : ℕ} (h : Scanned src length (i,l)) :
    (if l ≤ i + 1 then (src.take l,l) else
        (src.take i ++ (copyLoop src l l i).1,(copyLoop src l l i).2)) =
      (unstuff (src.take length),unitEnd (src.take length)) := by
  obtain ⟨hclear,⟨hmark,htest⟩ | ⟨hi,hl⟩⟩ := h
  · obtain ⟨hread,hend⟩ := hclear.read hlength (by have := hmark.1; omega)
    have hthree := drop_three hlength hmark.1
    have hzero := hmark.2.1
    have hone := hmark.2.2.1
    dsimp only at hthree hzero hone htest hread hend
    rw [hread,hend]
    unfold startcodeTest at htest
    rw [if_pos (by simp [hmark.1,hone,hmark.2.2.2])] at htest
    split_ifs at htest with hcode
    · obtain rfl := Option.some.inj htest
      simp only [Bool.and_eq_true,decide_eq_true_eq] at hcode
      obtain ⟨hnone,hhere⟩ := unstuff_startcode (small_cases hmark.2.2.2 hcode.2 hcode.1)
        ((src.take length).drop (i + 3))
      rw [if_pos (Nat.le_succ i),hthree,hzero,hone,hnone,hhere,List.append_nil]
      rfl
    · obtain rfl := Option.some.inj htest
      have hi := hmark.1
      dsimp only at hi
      rw [if_neg (by omega),copyLoop_eq hlength length i (by omega) (by omega)]
  · dsimp only at hclear hi hl
    subst hl
    have hmin := (hclear.mono (min_le_left i l)).read hlength (min_le_right i l)
    have hlen : ((src.take l).drop (min i l)).length = l - min i l := by
      rw [List.length_drop,List.length_take,min_eq_left hlength]
    have hshort := unstuff_short (by omega : ((src.take l).drop (min i l)).length ≤ 2)
    rw [if_pos hi,hmin.1,hmin.2,hshort.1,hshort.2,hlen]
    have htake : src.take (min i l) = (src.take l).take (min i l) := by
      rw [List.take_take,min_eq_left (min_le_right i l)]
    rw [htake,List.take_append_drop,Nat.add_sub_cancel' (min_le_right i l)]

end Bytes

/-- What is read of `length` bytes behind the header. -/
lemma decodeNal_take (scan : Scan) (header : UInt8) {rest : List UInt8} {length : ℕ}
    (hlength : length ≤ rest.length) : decodeNal scan (header :: rest) (length + 1) =
      ⟨header.toNat / 32,header.toNat % 32,unstuff (rest.take length),
        unitEnd (rest.take length) + 1⟩ := by
  have hscan := scan.run_scanned rest length
  have href : header.toNat >>> 5 = header.toNat / 32 := Nat.shiftRight_eq_div_pow _ 5
  have htype : header.toNat &&& 0x1F = header.toNat % 32 := Nat.and_two_pow_sub_one_eq_mod _ 5
  have hheader : byteAt (header :: rest) 0 = header := rfl
  simp only [decodeNal,hheader,href,htype,Nat.add_sub_cancel,List.drop_succ_cons,List.drop_zero]
  generalize scan.run rest length = found at hscan ⊢
  have hread := scanned_read hlength hscan
  split_ifs at hread ⊢ with hdone
  · rw [Prod.mk.injEq] at hread
    rw [hread.1,hread.2]
  · rw [Prod.mk.injEq] at hread
    rw [hread.1,hread.2]

/-- Whatever the scan and whatever lies behind the unit, what is read is the unit without its
escapes, up to a start code. -/
theorem decodeNal_eq (scan : Scan) (header : UInt8) (bytes behind : List UInt8) :
    decodeNal scan (header :: (bytes ++ behind)) (bytes.length + 1) =
      ⟨header.toNat / 32,header.toNat % 32,unstuff bytes,unitEnd bytes + 1⟩ := by
  rw [decodeNal_take scan header (by simp : bytes.length ≤ (bytes ++ behind).length),
    List.take_left' rfl]

end ZenMedia.H264
