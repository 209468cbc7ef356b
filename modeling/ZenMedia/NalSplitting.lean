import ZenMedia.BitStrings
import ZenMedia.NalDecoding

/-! How the H.264 decoder takes a packet apart, be it one with sizes, one with start codes or a
mix of both, and how many bits of each NAL unit it reads. -/
namespace ZenMedia.H264
open ByteStuffing BitStrings Avc

/-- `AV_RB32` -/
def rb32 (buf : List UInt8) (i : ℕ) : ℕ :=
  readOn 0 [byteAt buf i,byteAt buf (i + 1),byteAt buf (i + 2),byteAt buf (i + 3)]

/-- The first loop of `avpriv_find_start_code`; the error is what it returns out of the
function. -/
def startcodeHead (buf : List UInt8) (stop : ℕ) : ℕ → ℕ → BitVec 32 → Except (ℕ × BitVec 32) (ℕ × BitVec 32)
  | 0, p, state => .ok (p,state)
  | n + 1, p, state =>
    let tmp := state <<< 8
    let state := tmp + (byteAt buf p).toBitVec.setWidth 32
    if tmp = 0x100 || p + 1 = stop then .error (p + 1,state) else startcodeHead buf stop n (p + 1) state

/-- Its second loop, for `n` rounds at most. -/
def startcodeLoop (buf : List UInt8) (stop : ℕ) : ℕ → ℕ → ℕ
  | 0, p => p
  | n + 1, p =>
    if p < stop then
      if 1 < byteAt buf (p - 1) then startcodeLoop buf stop n (p + 3)
      else if byteAt buf (p - 2) ≠ 0 then startcodeLoop buf stop n (p + 2)
      else if byteAt buf (p - 3) ||| (byteAt buf (p - 1) - 1) ≠ 0 then startcodeLoop buf stop n (p + 1)
      else p + 1
    else p

/-- `avpriv_find_start_code`, with the state it leaves. -/
def findStartCodeState (buf : List UInt8) (p stop : ℕ) (state : BitVec 32) : ℕ × BitVec 32 :=
  if stop ≤ p then (stop,state)
  else
    match startcodeHead buf stop 3 p state with
    | .error found => found
    | .ok (p,_) =>
      let p := min (startcodeLoop buf stop stop p) stop - 4
      (p + 4,BitVec.ofNat 32 (rb32 buf p))

/-- `find_start_code` of h264.h -/
def findStartCode (buf : List UInt8) (buf_index next_avc : ℕ) : ℕ :=
  min ((findStartCodeState buf buf_index (next_avc + 1) 0xFFFFFFFF).1 - 1) buf.length

/-- `get_avc_nalsize`; its errors all end the loop. -/
def getAvcNalsize (nal_length_size : ℕ) (buf : List UInt8) (buf_index : ℕ) : Option ℕ :=
  if buf.length ≤ buf_index + nal_length_size then none
  else
    let nalsize := (BitVec.ofNat 32 (readOn 0 ((buf.drop buf_index).take nal_length_size))).toInt
    if nalsize ≤ 0 || (buf.length : ℤ) - (buf_index + nal_length_size) < nalsize then none
    else some nalsize.toNat

/-- `decode_rbsp_trailing`: the loop of `n` rounds, in round `r`. -/
def rbspTrailing : ℕ → ℕ → ℕ → ℕ
  | 0, _, _ => 0
  | n + 1, r, v => if v % 2 = 1 then r else rbspTrailing n (r + 1) (v / 2)

/-- The loop of `get_bit_length` over zeros at the end. -/
def withoutZeros (ptr : List UInt8) : List UInt8 := ptr.rdropWhile (· = 0)

/-- `get_bit_length` -/
def getBitLength (truncated : Bool) (ptr : List UInt8) : ℕ :=
  let ptr := if truncated then ptr else withoutZeros ptr
  match ptr.getLast? with
  | none => 0
  | some last => 8 * ptr.length - rbspTrailing 8 1 last.toNat

/-- What `get_bit_length` makes of the flags: the stream is taken for a truncated one. -/
def seemsTruncated (autodetect : Bool) (buf : List UInt8) (i next_avc : ℕ) : Bool :=
  autodetect && i + 3 < next_avc && byteAt buf i = 0 && byteAt buf (i + 1) = 0 &&
    byteAt buf (i + 2) = 1 && byteAt buf (i + 3) = 0xE0

/-- The fields that `decode_nal_units` reads; the last two are flags of `workaround_bugs`. -/
structure Context where
  is_avc : Bool
  nal_length_size : ℕ
  autodetect : Bool
  truncated : Bool
  deriving DecidableEq, Repr

/-- A NAL unit as it is handed on: what is read of `ptr` are `bit_length` bits. -/
structure Handed where
  nal_ref_idc : ℕ
  nal_unit_type : ℕ
  bits : List Bool
  deriving DecidableEq, Repr

/-- Where the next unit is. -/
inductive Located where
  | none
  | again (buf_index : ℕ)
  | unit (buf_index next_avc : ℕ)
  deriving DecidableEq, Repr

def locate (nal_length_size : ℕ) (buf : List UInt8) (buf_index next_avc : ℕ) : Located :=
  if next_avc ≤ buf_index then
    match getAvcNalsize nal_length_size buf buf_index with
    | .none => .none
    | some nalsize => .unit (buf_index + nal_length_size) (buf_index + nal_length_size + nalsize)
  else
    let buf_index := findStartCode buf buf_index next_avc
    if buf.length ≤ buf_index then .none
    else if next_avc ≤ buf_index then .again buf_index
    else .unit buf_index next_avc

/-- The loop of `decode_nal_units`, for `n` rounds at most. What is done with a unit by its type is
not part of it, but that it may leave the loop (`goto end`): `leaves` says behind which units. -/
def nalLoop (scan : Scan) (nal_length_size : ℕ) (autodetect : Bool) (leaves : ℕ → Bool)
    (buf : List UInt8) : ℕ → ℕ → Bool → ℕ → ℕ → List Handed
  | 0, _, _, _, _ => []
  | n + 1, nal_index, truncated, buf_index, next_avc =>
    match locate nal_length_size buf buf_index next_avc with
    | .none => []
    | .again buf_index =>
      nalLoop scan nal_length_size autodetect leaves buf n nal_index truncated buf_index next_avc
    | .unit buf_index next_avc =>
      let nal := decodeNal scan (buf.drop buf_index) (next_avc - buf_index)
      let buf_index := buf_index + nal.consumed
      let truncated := truncated || seemsTruncated autodetect buf buf_index next_avc
      let nal_index := nal_index + 1
      ⟨nal.nal_ref_idc,nal.nal_unit_type,(bits nal.dst).take (getBitLength truncated nal.dst)⟩ ::
        if leaves nal_index then []
        else nalLoop scan nal_length_size autodetect leaves buf n nal_index truncated buf_index next_avc

/-- What `decode_nal_units` makes of the form of a packet. -/
def detected (h : Context) (buf : List UInt8) : Bool :=
  if h.nal_length_size = 4 then
    if 8 < buf.length && rb32 buf 0 = 1 && buf.length < rb32 buf 5 then false
    else if 3 < buf.length && 1 < rb32 buf 0 && rb32 buf 0 ≤ buf.length then true
    else h.is_avc
  else h.is_avc

/-- The units that `decode_nal_units` finds in a packet. -/
def nalUnits (scan : Scan) (leaves : ℕ → Bool) (h : Context) (buf : List UInt8) : List Handed :=
  nalLoop scan h.nal_length_size h.autodetect leaves buf (buf.length + 1) 0 h.truncated 0
    (if detected h buf then 0 else buf.length)

/-- The units that `get_last_needed_nal` goes through; its loop is the same one and is not left. -/
def unitsAhead (scan : Scan) (h : Context) (buf : List UInt8) : List Handed :=
  nalUnits scan (fun _ => false) h buf

lemma rb32_eq {buf : List UInt8} {i : ℕ} (h : i + 4 ≤ buf.length) :
    rb32 buf i = readOn 0 ((buf.drop i).take 4) := by
  have hbyte (j : ℕ) : byteAt buf (i + j) = byteAt (buf.drop i) j := (byteAt_drop buf i j).symm
  have hlen : 4 ≤ (buf.drop i).length := by
    rw [List.length_drop]
    omega
  have hzero := hbyte 0
  rw [Nat.add_zero] at hzero
  rw [rb32,hzero,hbyte,hbyte,hbyte]
  generalize buf.drop i = bytes at hlen ⊢
  rcases bytes with _ | ⟨a,_ | ⟨b,_ | ⟨c,_ | ⟨d,rest⟩⟩⟩⟩
  · simp at hlen
  · simp at hlen
  · simp at hlen
  · simp at hlen
  · simp [byteAt]

/-! ### The search for a start code -/

/-- What the second loop finds from `p` on: the byte behind the start code, or the end. -/
lemma startcodeLoop_spec (buf : List UInt8) (stop start n p : ℕ) (hn : stop ≤ p + n)
    (hp : start + 3 ≤ p) (h : Clear buf start (p - 3)) :
    (∃ q, startcodeLoop buf stop n p = q + 4 ∧ start ≤ q ∧ q + 4 ≤ stop ∧ isStart buf q = true ∧
      Clear buf start q) ∨
      stop ≤ startcodeLoop buf stop n p ∧ Clear buf start (stop - 3) := by
  have hend {q : ℕ} (hq : stop ≤ q) (hclear : Clear buf start (q - 3)) :
      Clear buf start (stop - 3) := by
    intro i hi hi'
    exact hclear i hi (by omega)
  obtain ⟨q,rfl⟩ : ∃ q, p = q + 3 := ⟨p - 3,by omega⟩
  induction n generalizing q with
  | zero => exact .inr ⟨hn,hend hn h⟩
  | succ n ih =>
    have htwo : q + 3 - 1 = q + 2 := rfl
    have hone : q + 3 - 2 = q + 1 := rfl
    have hzero : q + 3 - 3 = q := rfl
    rw [startcodeLoop,htwo,hone,hzero]
    rw [hzero] at h
    -- the places that a step passes over
    have hpass (k : ℕ) (hk : ∀ j, q ≤ j → j < q + k → isStart buf j = false) :
        Clear buf start (q + k) := h.trans hk
    split_ifs with hlt hbig hsecond hthird
    · apply ih (q + 3) (by omega) (by omega)
      apply hpass
      intro j hj hjk
      have hne : byteAt buf (q + 2) ≠ 0 ∧ byteAt buf (q + 2) ≠ 1 := by
        constructor <;> intro heq <;> rw [heq] at hbig <;> exact absurd hbig (by decide)
      rcases (by omega : j = q ∨ j = q + 1 ∨ j = q + 2) with rfl | rfl | rfl <;>
        simp [isStart,Nat.add_assoc,hne]
    · apply ih (q + 2) (by omega) (by omega)
      apply hpass
      intro j hj hjk
      rcases (by omega : j = q ∨ j = q + 1) with rfl | rfl <;> simp [isStart,hsecond]
    · apply ih (q + 1) (by omega) (by omega)
      apply hpass
      intro j hj hjk
      have hj' : j = q := by omega
      subst hj'
      by_contra hstart
      simp only [Bool.not_eq_false,isStart,Bool.and_eq_true,decide_eq_true_eq] at hstart
      apply hthird
      rw [hstart.1.1,hstart.2]
      rfl
    · refine .inl ⟨q,rfl,by omega,by omega,?_,h⟩
      obtain ⟨hfirst,hlast⟩ := UInt8.or_eq_zero_iff.mp (not_not.mp hthird)
      have hone' : byteAt buf (q + 2) = 1 := by grind
      simp [isStart,hfirst,not_not.mp hsecond,hone']
    · exact .inr ⟨not_lt.mp hlt,hend (not_lt.mp hlt) h⟩

/-- A round without a start code in the state. -/
lemma startcodeHead_step (buf : List UInt8) (stop n p : ℕ) {state : BitVec 32}
    (h : 256 < (state <<< 8).toNat) : startcodeHead buf stop (n + 1) p state =
      if p + 1 = stop then .error (stop,state <<< 8 + (byteAt buf p).toBitVec.setWidth 32)
      else startcodeHead buf stop n (p + 1) (state <<< 8 + (byteAt buf p).toBitVec.setWidth 32) := by
  have hne : ¬ state <<< 8 = 256#32 := by
    intro heq
    rw [heq] at h
    exact absurd h (by decide)
  rw [startcodeHead]
  by_cases hp : p + 1 = stop <;> simp [hne,hp]

/-- With nothing read before, the first three bytes are no more than read. -/
lemma startcodeHead_fresh (buf : List UInt8) {p stop : ℕ} (h : p < stop) : ∃ state,
    startcodeHead buf stop 3 p 0xFFFFFFFF =
      if stop ≤ p + 3 then .error (stop,state) else .ok (p + 3,state) := by
  have hb (i : ℕ) : (byteAt buf i).toNat < 256 := UInt8.toNat_lt _
  -- the ones of the state are not shifted out so soon
  have hnext (state : BitVec 32) (i : ℕ) :
      ((state <<< 8 + (byteAt buf i).toBitVec.setWidth 32) <<< 8).toNat =
        (state.toNat * 65536 + (byteAt buf i).toNat * 256) % 4294967296 := by
    have hbyte : ((byteAt buf i).toBitVec.setWidth 32).toNat = (byteAt buf i).toNat := by
      rw [BitVec.toNat_setWidth]
      exact Nat.mod_eq_of_lt (lt_trans (hb i) (by decide))
    rw [BitVec.toNat_shiftLeft,BitVec.toNat_add,BitVec.toNat_shiftLeft,hbyte]
    simp only [Nat.shiftLeft_eq]
    omega
  have h₀ := hb p
  have h₁ := hb (p + 1)
  have hones : (0xFFFFFFFF : BitVec 32).toNat = 4294967295 := rfl
  generalize (0xFFFFFFFF : BitVec 32) = ones at hones ⊢
  have hone : (ones <<< 8).toNat = 4294967040 := by
    rw [BitVec.toNat_shiftLeft,Nat.shiftLeft_eq,hones]
  have htwo := hnext ones p
  have hthree := hnext (ones <<< 8 + (byteAt buf p).toBitVec.setWidth 32) (p + 1)
  rw [BitVec.toNat_shiftLeft,Nat.shiftLeft_eq] at htwo
  rw [startcodeHead_step _ _ _ _ (by rw [hone]; decide),
    startcodeHead_step _ _ _ _ (by rw [BitVec.toNat_shiftLeft,Nat.shiftLeft_eq]; omega),
    startcodeHead_step _ _ _ _ (by rw [hthree]; omega)]
  by_cases hp₁ : p + 1 = stop
  · exact ⟨_,by rw [if_pos hp₁,if_pos (by omega)]⟩
  by_cases hp₂ : p + 1 + 1 = stop
  · exact ⟨_,by rw [if_neg hp₁,if_pos hp₂,if_pos (by omega)]⟩
  by_cases hp₃ : p + 1 + 1 + 1 = stop
  · exact ⟨_,by rw [if_neg hp₁,if_neg hp₂,if_pos hp₃,if_pos (by omega)]⟩
  · exact ⟨_,by rw [if_neg hp₁,if_neg hp₂,if_neg hp₃,if_neg (by omega),startcodeHead]⟩

lemma isStart_slice {buf : List UInt8} {first last i : ℕ} (h : first + i + 2 < last) :
    isStart ((buf.take last).drop first) i = isStart buf (first + i) := by
  have hbyte (j : ℕ) (hj : first + j < last) :
      byteAt ((buf.take last).drop first) j = byteAt buf (first + j) := by
    rw [byteAt_drop]
    simp [byteAt,hj]
  rw [isStart,isStart,hbyte i (by omega),hbyte (i + 1) (by omega),hbyte (i + 2) (by omega)]
  rfl

/-- Reading on at `buf_index`, the decoder finds the next start code in the bytes up to
`next_avc`, or their end. -/
lemma findStartCode_eq (buf : List UInt8) {buf_index next_avc : ℕ} (h : buf_index < next_avc)
    (hnext : next_avc ≤ buf.length) :
    findStartCode buf buf_index next_avc = buf_index +
      min (nextStart ((buf.take next_avc).drop buf_index) + 3) (next_avc - buf_index) := by
  obtain ⟨state,hhead⟩ := startcodeHead_fresh buf (by omega : buf_index < next_avc + 1)
  have hnot : ¬ next_avc + 1 ≤ buf_index := by omega
  have hlen : ((buf.take next_avc).drop buf_index).length = next_avc - buf_index := by
    rw [List.length_drop,List.length_take,min_eq_left hnext]
  obtain ⟨hfirst,hbefore⟩ := nextStart_spec ((buf.take next_avc).drop buf_index)
  rw [hlen] at hfirst hbefore
  generalize nextStart ((buf.take next_avc).drop buf_index) = first at hfirst hbefore ⊢
  rw [findStartCode,findStartCodeState,if_neg hnot,hhead]
  by_cases hshort : next_avc + 1 ≤ buf_index + 3
  · rw [if_pos hshort]
    dsimp only
    omega
  · rw [if_neg hshort]
    dsimp only
    -- a start code that the list has is one of the buffer
    have hstart (hlt : first + 3 < next_avc - buf_index)
        (hs : isStart ((buf.take next_avc).drop buf_index) first = true) :
        isStart buf (buf_index + first) = true := by
      rwa [isStart_slice (by omega)] at hs
    rcases startcodeLoop_spec buf (next_avc + 1) buf_index (next_avc + 1) (buf_index + 3) (by omega)
      le_rfl (Clear.refl buf buf_index) with ⟨q,hq,hle,hstop,hhere,hclear⟩ | ⟨hq,hclear⟩
    · rw [hq]
      rcases hfirst with ⟨hlt,hs⟩ | heq
      · have hge : q ≤ buf_index + first := by
          by_contra hgt
          have := hclear (buf_index + first) (by omega) (by omega)
          rw [hstart hlt hs] at this
          cases this
        have hle' : buf_index + first ≤ q := by
          by_contra hgt
          have := hbefore (q - buf_index) (by omega) (by omega)
          rw [isStart_slice (by omega),Nat.add_sub_cancel' hle,hhere] at this
          cases this
        omega
      · have hlast : q + 3 = next_avc := by
          by_contra hne
          have := hbefore (q - buf_index) (by omega) (by omega)
          rw [isStart_slice (by omega),Nat.add_sub_cancel' hle,hhere] at this
          cases this
        omega
    · rcases hfirst with ⟨hlt,hs⟩ | heq
      · have := hclear (buf_index + first) (by omega) (by omega)
        rw [hstart hlt hs] at this
        cases this
      · omega

/-! ### The bits of a unit -/

/-- The bits of a number that is not zero, about the lowest that is set. -/
lemma rbspTrailing_spec {n v : ℕ} (r : ℕ) (h : v % 2 ^ n ≠ 0) : ∃ k < n,
    rbspTrailing n r v = r + k ∧
      bitsOf n v = bitsOf (n - (k + 1)) (v / 2 ^ (k + 1)) ++ true :: List.replicate k false := by
  induction n generalizing r v with
  | zero => simp [Nat.mod_one] at h
  | succ n ih =>
    rw [rbspTrailing,bitsOf]
    by_cases hodd : v % 2 = 1
    · refine ⟨0,Nat.succ_pos n,by rw [if_pos hodd]; rfl,?_⟩
      simp [hodd]
    · have hhalf : v / 2 % 2 ^ n ≠ 0 := by
        intro hzero
        apply h
        rw [pow_succ',Nat.mod_mul,hzero]
        omega
      obtain ⟨k,hk,htrailing,hbits⟩ := ih (r + 1) hhalf
      refine ⟨k + 1,by omega,?_,?_⟩
      · rw [if_neg hodd,htrailing]
        omega
      · have hlast : decide (v % 2 = 1) = false := by simp [hodd]
        have hsub : n + 1 - (k + 1 + 1) = n - (k + 1) := by omega
        rw [hbits,hlast,Nat.div_div_eq_div_mul,← pow_succ',hsub,List.append_assoc,List.cons_append,
          ← List.replicate_succ']

lemma withoutZeros_spec (ptr : List UInt8) : Closed (withoutZeros ptr) ∧
    ∃ k, ptr = withoutZeros ptr ++ List.replicate k 0 := by
  unfold withoutZeros
  induction ptr using List.reverseRecOn with
  | nil => exact ⟨by simp [Closed],0,by simp⟩
  | append_singleton ptr b ih =>
    rw [List.rdropWhile_concat]
    by_cases hb : b = 0
    · obtain ⟨hclosed,k,hk⟩ := ih
      rw [if_pos (by simpa using hb)]
      refine ⟨hclosed,k + 1,?_⟩
      rw [List.replicate_succ',← List.append_assoc,← hk,hb]
    · rw [if_neg (by simpa using hb)]
      exact ⟨by simp [Closed,hb],0,by simp⟩

lemma bits_zeros (k : ℕ) : bits (List.replicate k 0) = List.replicate (8 * k) false := by
  induction k with
  | zero => rfl
  | succ k ih =>
    have hbyte : bitsOf 8 (0 : UInt8).toNat = List.replicate 8 false := by decide
    rw [List.replicate_succ,bits,List.flatMap_cons,hbyte]
    change _ ++ bits _ = _
    rw [ih,List.replicate_append_replicate]
    congr 1
    omega

/-- What is read of a unit is what comes before its stop bit. -/
theorem take_getBitLength (ptr : List UInt8) :
    (bits ptr).take (getBitLength false ptr) = beforeStop (bits ptr) := by
  obtain ⟨hclosed,k,hk⟩ := withoutZeros_spec ptr
  rw [getBitLength]
  simp only [Bool.false_eq_true,if_false]
  generalize withoutZeros ptr = kept at hclosed hk ⊢
  rcases List.eq_nil_or_concat kept with rfl | ⟨front,last,rfl⟩
  · rw [hk,List.nil_append,bits_zeros,beforeStop_zeros]
    rfl
  · rw [List.concat_eq_append] at hclosed hk ⊢
    have hlast : last.toNat % 2 ^ 8 ≠ 0 := by
      have hlt : last.toNat < 2 ^ 8 := UInt8.toNat_lt last
      rw [Nat.mod_eq_of_lt hlt]
      intro hzero
      apply hclosed
      have hz : last = 0 := UInt8.toNat_inj.mp hzero
      rw [List.getLast?_concat,hz]
    obtain ⟨r,hr,htrailing,hbits⟩ := rbspTrailing_spec 1 hlast
    have hall : bits ptr = (bits front ++ bitsOf (8 - (r + 1)) (last.toNat / 2 ^ (r + 1))) ++
        true :: List.replicate (r + 8 * k) false := by
      rw [hk,bits_append,bits_append,bits_zeros]
      simp only [bits,List.flatMap_cons,List.flatMap_nil,List.append_nil]
      rw [hbits,List.replicate_add]
      simp
    rw [List.getLast?_concat,hall,beforeStop_stopped]
    dsimp only
    apply List.take_left'
    rw [htrailing,List.length_append,bits_length,bitsOf_length,List.length_append,List.length_singleton]
    omega

/-! ### The rounds of the loop -/

lemma decodeNal_consumed (scan : Scan) {src : List UInt8} {length : ℕ} (hpos : 0 < length)
    (h : length ≤ src.length) :
    0 < (decodeNal scan src length).consumed ∧ (decodeNal scan src length).consumed ≤ length := by
  obtain ⟨header,rest,rfl⟩ := List.exists_cons_of_length_pos (by omega : 0 < src.length)
  rw [List.length_cons] at h
  have hread := decodeNal_take scan header (by omega : length - 1 ≤ rest.length)
  have hle := unitEnd_le (rest.take (length - 1))
  rw [List.length_take] at hle
  rw [Nat.sub_add_cancel hpos] at hread
  rw [hread]
  dsimp only
  omega

lemma getAvcNalsize_some {nal_length_size : ℕ} {buf : List UInt8} {buf_index nalsize : ℕ}
    (h : getAvcNalsize nal_length_size buf buf_index = some nalsize) :
    0 < nalsize ∧ buf_index + nal_length_size + nalsize ≤ buf.length := by
  unfold getAvcNalsize at h
  dsimp only at h
  split_ifs at h with hend hsize
  simp only [Bool.or_eq_true,decide_eq_true_eq,not_or,not_le,not_lt] at hsize
  obtain rfl := Option.some.inj h
  omega

/-- The unit that is found lies behind where the search began, and in the packet. -/
lemma locate_unit {nal_length_size : ℕ} {buf : List UInt8} {buf_index next_avc start stop : ℕ}
    (hnext : next_avc ≤ buf.length)
    (h : locate nal_length_size buf buf_index next_avc = .unit start stop) :
    buf_index ≤ start ∧ start < stop ∧ stop ≤ buf.length := by
  unfold locate at h
  by_cases hsize : next_avc ≤ buf_index
  · rw [if_pos hsize] at h
    cases hnal : getAvcNalsize nal_length_size buf buf_index with
    | none =>
      rw [hnal] at h
      cases h
    | some nalsize =>
      rw [hnal] at h
      cases h
      have hfit := getAvcNalsize_some hnal
      omega
  · rw [if_neg hsize] at h
    have hfound := findStartCode_eq buf (not_le.mp hsize) hnext
    dsimp only at h
    split_ifs at h with hend hstop
    cases h
    omega

lemma locate_again {nal_length_size : ℕ} {buf : List UInt8} {buf_index next_avc start : ℕ}
    (h : locate nal_length_size buf buf_index next_avc = .again start) :
    buf_index < start ∧ start < buf.length := by
  unfold locate at h
  by_cases hsize : next_avc ≤ buf_index
  · rw [if_pos hsize] at h
    split at h <;> cases h
  · rw [if_neg hsize] at h
    dsimp only at h
    split_ifs at h with hend hstop
    cases h
    omega

/-- Each round gets on by a byte at least: whatever the packet, more rounds find no more. -/
theorem nalLoop_rounds (scan : Scan) (nal_length_size : ℕ) (autodetect : Bool) (leaves : ℕ → Bool)
    (buf : List UInt8) (n nal_index : ℕ) (truncated : Bool) (buf_index next_avc : ℕ)
    (hn : buf.length < buf_index + n) (hnext : next_avc ≤ buf.length) :
    nalLoop scan nal_length_size autodetect leaves buf (n + 1) nal_index truncated buf_index next_avc =
      nalLoop scan nal_length_size autodetect leaves buf n nal_index truncated buf_index next_avc := by
  induction n generalizing nal_index truncated buf_index next_avc with
  | zero =>
    have hnone : locate nal_length_size buf buf_index next_avc = .none := by
      rw [locate,if_pos (by omega),getAvcNalsize,if_pos (by omega)]
    simp only [nalLoop,hnone]
  | succ n ih =>
    rw [nalLoop,nalLoop]
    cases hfound : locate nal_length_size buf buf_index next_avc with
    | none => rfl
    | again start =>
      have hle := locate_again hfound
      exact ih nal_index truncated start next_avc (by omega) hnext
    | unit start stop =>
      have hle := locate_unit hnext hfound
      have hconsumed := decodeNal_consumed scan (by omega : 0 < stop - start)
        (by rw [List.length_drop]; omega : stop - start ≤ (buf.drop start).length)
      dsimp only
      rw [ih _ _ _ stop (by omega) hle.2.2]

end ZenMedia.H264
