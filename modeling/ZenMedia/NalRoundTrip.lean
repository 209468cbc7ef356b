import ZenMedia.NalUnits
import ZenMedia.NalSplitting

/-! What the decoder gets of the NAL units that x264 has written, for a stream or for a file. -/
namespace ZenMedia.H264
open ByteStuffing BitStrings Avc X264

/-- A unit as the decoder shall get it. -/
def handed (nal : Nal) : Handed :=
  ⟨nal.i_ref_idc,nal.i_type,beforeStop (bits nal.payload)⟩

/-- The units up to the one behind which the loop is left, the first being number `nal_index`. -/
def upTo (leaves : ℕ → Bool) : ℕ → List Handed → List Handed
  | _, [] => []
  | nal_index, unit :: units =>
    unit :: if leaves nal_index then [] else upTo leaves (nal_index + 1) units

lemma upTo_never (nal_index : ℕ) (units : List Handed) :
    upTo (fun _ => false) nal_index units = units := by
  induction units generalizing nal_index with
  | nil => rfl
  | cons unit units ih => rw [upTo,if_neg Bool.false_ne_true,ih]

/-! ### One unit -/

lemma unstuff_nalEscape {src : List UInt8} (h : Closed src) (rest : List UInt8) :
    unstuff (nalEscape src ++ rest) = src ++ unstuff rest := by
  rcases src with _ | ⟨a,_ | ⟨b,src⟩⟩
  · rfl
  · have ha : a ≠ 0 := by simpa [Closed] using h
    exact unstuff_cons ha rest
  · have hsplit : Closed ([a] ++ b :: src) := h
    have hread := unstuff_stuff a b src rest (.inr (hsplit.pending a))
    rw [nalEscape]
    simp only [List.cons_append]
    by_cases hb : b = 0
    · subst hb
      by_cases ha : a = 0
      · subst ha
        exact hread
      · rw [pending_zero ha] at hread
        rw [unstuff_cons ha]
        exact congrArg (a :: ·) hread
    · rw [pending_ne hb] at hread
      by_cases ha : a = 0
      · subst ha
        rw [unstuff_zero_cons hb]
        exact congrArg (0 :: b :: ·) hread
      · rw [unstuff_cons ha,unstuff_cons hb]
        exact congrArg (a :: b :: ·) hread

lemma unitEnd_nalEscape {src : List UInt8} (h : Closed src) (rest : List UInt8) :
    unitEnd (nalEscape src ++ rest) = (nalEscape src).length + unitEnd rest := by
  apply (nalEscape_noEnd src).unitEnd_append
  unfold Closed at h ⊢
  rwa [nalEscape_getLast?]

/-- A unit is read up to its end, and on over the zeros of a long start code. -/
lemma decodeNal_unit (scan : Scan) {nal : Nal} (h : Proper nal) (rest behind : List UInt8) :
    decodeNal scan (nal.unit ++ (rest ++ behind)) (nal.unit.length + rest.length) =
      ⟨nal.i_ref_idc,nal.i_type,nal.payload ++ unstuff rest,nal.unit.length + unitEnd rest⟩ := by
  have hread := decodeNal_take scan nal.header (by simp : (nalEscape nal.payload ++ rest).length ≤
    (nalEscape nal.payload ++ rest ++ behind).length)
  rw [List.take_left' rfl] at hread
  have hlen : nal.unit.length = (nalEscape nal.payload).length + 1 := rfl
  have hheader := h.header_toNat
  have href : nal.header.toNat / 32 = nal.i_ref_idc := by
    have := h.i_type
    omega
  have htype : nal.header.toNat % 32 = nal.i_type := by
    have := h.i_type
    omega
  rw [href,htype,unstuff_nalEscape h.closed,unitEnd_nalEscape h.closed,List.length_append,
    List.append_assoc] at hread
  have hlength : nal.unit.length + rest.length = (nalEscape nal.payload).length + rest.length + 1 := by
    omega
  have hconsumed : nal.unit.length + unitEnd rest = (nalEscape nal.payload).length + unitEnd rest + 1 := by
    omega
  rw [hlength,hconsumed]
  exact hread

/-- The bits of a unit, whatever zeros come with it. -/
lemma handed_bits (payload : List UInt8) (k : ℕ) :
    (bits (payload ++ List.replicate k 0)).take (getBitLength false (payload ++ List.replicate k 0)) =
      beforeStop (bits payload) := by
  rw [take_getBitLength,bits_append,bits_zeros,beforeStop_padded]

/-! ### Start codes -/

/-- The zeros that go with the unit before. -/
def lead : List (Bool × List UInt8) → ℕ
  | [] => 0
  | (long,_) :: _ => long.toNat

/-- What is left then. -/
def shortened : List (Bool × List UInt8) → List (Bool × List UInt8)
  | [] => []
  | (_,unit) :: pieces => (false,unit) :: pieces

lemma annexb_lead (pieces : List (Bool × List UInt8)) :
    annexb pieces = List.replicate (lead pieces) 0 ++ annexb (shortened pieces) := by
  rcases pieces with _ | ⟨⟨long,unit⟩,pieces⟩
  · rfl
  · cases long <;> simp [annexb,lead,shortened,startcode]

lemma annexb_read (pieces : List (Bool × List UInt8)) :
    unstuff (annexb pieces) = List.replicate (lead pieces) 0 ∧ unitEnd (annexb pieces) = lead pieces := by
  rcases pieces with _ | ⟨⟨long,unit⟩,pieces⟩
  · exact ⟨rfl,rfl⟩
  · rw [annexb_cons,startcode_append]
    exact ⟨unstuff_start _ _,unitEnd_start _ _⟩

/-- A packet is not taken for a truncated one. -/
lemma not_seemsTruncated (autodetect : Bool) (front : List UInt8) {pieces : List (Bool × List UInt8)}
    (h : ∀ piece ∈ pieces, ∃ nal, Proper nal ∧ piece.2 = nal.unit) :
    seemsTruncated autodetect (front ++ annexb (shortened pieces)) front.length
      (front ++ annexb (shortened pieces)).length = false := by
  rcases pieces with _ | ⟨⟨long,unit⟩,pieces⟩
  · simp [seemsTruncated,shortened,annexb]
  · obtain ⟨nal,hnal,hunit⟩ := h (long,unit) List.mem_cons_self
    have hheader : nal.header ≠ 0xE0 := by
      intro heq
      have hnat := hnal.header_toNat
      have href := hnal.i_ref_idc
      have htype := hnal.i_type
      rw [heq] at hnat
      change 224 = _ at hnat
      omega
    have hbyte : byteAt (front ++ annexb (shortened ((long,unit) :: pieces))) (front.length + 3) =
        nal.header := by
      dsimp only at hunit
      rw [shortened,annexb_cons,hunit]
      simp [byteAt,startcode,Nal.unit]
    rw [seemsTruncated,hbyte]
    simp [hheader]

lemma locate_streamed (front : List UInt8) (long : Bool) {unit : List UInt8}
    (hunit : unit ≠ []) (rest : List UInt8) (nal_length_size : ℕ) :
    let buf := front ++ (startcode long ++ (unit ++ rest))
    locate nal_length_size buf front.length buf.length =
      .unit (front.length + (startcode long).length) buf.length := by
  intro buf
  obtain ⟨b,unit,rfl⟩ := List.exists_cons_of_ne_nil hunit
  have hslice : (buf.take buf.length).drop front.length = startcode long ++ (b :: unit ++ rest) := by
    rw [List.take_length,List.drop_left]
  have hlen : buf.length = front.length + ((startcode long).length + (unit.length + 1 + rest.length)) := by
    simp only [buf,List.length_append,List.length_cons]
  have hcode : (startcode long).length = long.toNat + 3 := by cases long <;> rfl
  have hfound := findStartCode_eq buf (by omega : front.length < buf.length) le_rfl
  have hnext := nextStart_zeros long.toNat b (unit ++ rest)
  rw [hslice,startcode_append,List.cons_append,hnext] at hfound
  rw [locate,if_neg (by omega)]
  dsimp only
  rw [if_neg (by omega),if_neg (by omega),hfound,hcode]
  congr 1
  omega

lemma shortened_snd (pieces : List (Bool × List UInt8)) :
    (shortened pieces).map Prod.snd = pieces.map Prod.snd := by
  cases pieces <;> rfl

/-- What is found in a stream, from any start code on. -/
lemma nalLoop_streamed (scan : Scan) (nal_length_size : ℕ) (autodetect : Bool) (leaves : ℕ → Bool)
    {nals : List Nal} (h : ∀ nal ∈ nals, Proper nal) {pieces : List (Bool × List UInt8)}
    (hpieces : pieces.map Prod.snd = nals.map Nal.unit) (front buf : List UInt8)
    (hbuf : front ++ annexb pieces = buf) (n nal_index : ℕ) (hn : nals.length < n) :
    nalLoop scan nal_length_size autodetect leaves buf n nal_index false front.length buf.length =
      upTo leaves (nal_index + 1) (nals.map handed) := by
  induction nals generalizing pieces front n nal_index with
  | nil =>
    obtain rfl : pieces = [] := by simpa using hpieces
    obtain ⟨n,rfl⟩ : ∃ m, n = m + 1 := ⟨n - 1,by omega⟩
    have hend : buf.length = front.length := by simp [← hbuf,annexb]
    have hnone : locate nal_length_size buf front.length buf.length = .none := by
      rw [locate,if_pos hend.le,getAvcNalsize,if_pos (by omega)]
    simp only [nalLoop,hnone]
    rfl
  | cons nal nals ih =>
    obtain ⟨n,rfl⟩ : ∃ m, n = m + 1 := ⟨n - 1,by omega⟩
    rcases pieces with _ | ⟨⟨long,unit⟩,pieces⟩
    · simp at hpieces
    · rw [List.map_cons,List.map_cons,List.cons.injEq] at hpieces
      obtain ⟨hunit,hrest⟩ := hpieces
      dsimp only at hunit
      subst hunit
      have hnal : Proper nal := h nal List.mem_cons_self
      have hnals : ∀ nal ∈ nals, Proper nal := fun nal hm => h nal (List.mem_cons_of_mem _ hm)
      rw [annexb_cons] at hbuf
      -- the unit, and with it the zeros before the next start code
      obtain ⟨next,hnext⟩ : ∃ next, front ++ startcode long ++ nal.unit ++
        List.replicate (lead pieces) 0 = next := ⟨_,rfl⟩
      have hnextlen : front.length + (startcode long).length + (nal.unit.length + lead pieces) =
          next.length := by
        rw [← hnext]
        simp only [List.length_append,List.length_replicate]
        omega
      have hbuf' : next ++ annexb (shortened pieces) = buf := by
        rw [← hnext,← hbuf,annexb_lead pieces]
        simp only [List.append_assoc]
      have hlocate := locate_streamed front long hnal.separable.ne_nil
        (annexb pieces) nal_length_size
      dsimp only at hlocate
      rw [hbuf] at hlocate
      have hdrop : buf.drop (front.length + (startcode long).length) = nal.unit ++ (annexb pieces ++ []) := by
        rw [← hbuf,← List.append_assoc,← List.length_append,List.drop_left,List.append_nil]
      have hlength : buf.length - (front.length + (startcode long).length) =
          nal.unit.length + (annexb pieces).length := by
        rw [← hbuf]
        simp only [List.length_append]
        omega
      have hdecode := decodeNal_unit scan hnal (annexb pieces) []
      rw [(annexb_read pieces).1,(annexb_read pieces).2] at hdecode
      have hunits : ∀ piece ∈ pieces, ∃ nal, Proper nal ∧ piece.2 = nal.unit := by
        intro piece hp
        have hmem : piece.2 ∈ nals.map Nal.unit := by
          rw [← hrest]
          exact List.mem_map_of_mem hp
        obtain ⟨nal,hm,heq⟩ := List.mem_map.mp hmem
        exact ⟨nal,hnals nal hm,heq.symm⟩
      have hwhole := not_seemsTruncated autodetect next hunits
      rw [hbuf'] at hwhole
      have hloop := ih hnals ((shortened_snd pieces).trans hrest) next hbuf' n (nal_index + 1) (by simpa using hn)
      rw [nalLoop,hlocate]
      dsimp only
      rw [hdrop,hlength,hdecode]
      dsimp only
      rw [hnextlen,hwhole,Bool.or_false,hloop,handed_bits]
      rfl

/-! ### Sizes -/

lemma sized_cons (unit : List UInt8) (units : List (List UInt8)) :
    sized (unit :: units) = bigEndian 4 unit.length ++ (unit ++ sized units) := by
  simp [sized]

lemma readOn_size {n : ℕ} (h : n < 2 ^ 31) : readOn 0 (bigEndian 4 n) = n := by
  rw [readOn_bigEndian 4 n 0 (by omega),Nat.zero_mul,Nat.zero_add]

lemma locate_filed (front : List UInt8) {unit : List UInt8} (hunit : unit ≠ []) (rest : List UInt8)
    (hsize : unit.length < 2 ^ 31) {next_avc : ℕ} (hnext : next_avc ≤ front.length) :
    locate 4 (front ++ (bigEndian 4 unit.length ++ (unit ++ rest))) front.length next_avc =
      .unit (front.length + 4) (front.length + 4 + unit.length) := by
  have hpos : 0 < unit.length := List.length_pos_of_ne_nil hunit
  have hlen : (front ++ (bigEndian 4 unit.length ++ (unit ++ rest))).length =
      front.length + 4 + unit.length + rest.length := by
    simp only [List.length_append,bigEndian_length]
    omega
  have hread : (BitVec.ofNat 32 (readOn 0 (((front ++ (bigEndian 4 unit.length ++ (unit ++ rest))).drop
      front.length).take 4))).toInt = unit.length := by
    rw [List.drop_left,List.take_left' (bigEndian_length _ _),readOn_size hsize,
      BitVec.toInt_eq_toNat_of_lt (by rw [BitVec.toNat_ofNat]; omega),BitVec.toNat_ofNat,
      Nat.mod_eq_of_lt (by omega)]
  rw [locate,if_pos hnext,getAvcNalsize,hread,if_neg (by omega)]
  dsimp only
  rw [if_neg (by simp only [Bool.or_eq_true,decide_eq_true_eq]; omega)]
  simp

/-- What is found in a file, from any size on. -/
lemma nalLoop_filed (scan : Scan) (autodetect : Bool) (leaves : ℕ → Bool) {nals : List Nal}
    (h : ∀ nal ∈ nals, Proper nal) (front buf : List UInt8) (hbuf : front ++ sized (nals.map Nal.unit) = buf)
    (hsize : buf.length < 2 ^ 31) (n nal_index : ℕ) (hn : nals.length < n) (next_avc : ℕ)
    (hnext : next_avc ≤ front.length) :
    nalLoop scan 4 autodetect leaves buf n nal_index false front.length next_avc =
      upTo leaves (nal_index + 1) (nals.map handed) := by
  induction nals generalizing front n nal_index next_avc with
  | nil =>
    obtain ⟨n,rfl⟩ : ∃ m, n = m + 1 := ⟨n - 1,by omega⟩
    have hend : buf.length = front.length := by simp [← hbuf,sized]
    have hnone : locate 4 buf front.length next_avc = .none := by
      rw [locate,if_pos hnext,getAvcNalsize,if_pos (by omega)]
    simp only [nalLoop,hnone]
    rfl
  | cons nal nals ih =>
    obtain ⟨n,rfl⟩ : ∃ m, n = m + 1 := ⟨n - 1,by omega⟩
    have hnal : Proper nal := h nal List.mem_cons_self
    have hnals : ∀ nal ∈ nals, Proper nal := fun nal hm => h nal (List.mem_cons_of_mem _ hm)
    rw [List.map_cons,sized_cons] at hbuf
    obtain ⟨next,hfront⟩ : ∃ next, front ++ bigEndian 4 nal.unit.length ++ nal.unit = next := ⟨_,rfl⟩
    have hnextlen : front.length + 4 + nal.unit.length = next.length := by
      simp only [← hfront,List.length_append,bigEndian_length]
    have hbuf' : next ++ sized (nals.map Nal.unit) = buf := by
      rw [← hfront,← hbuf]
      simp only [List.append_assoc]
    have hunit : nal.unit.length < 2 ^ 31 := by
      rw [← hbuf'] at hsize
      simp only [List.length_append] at hsize
      omega
    have hlocate := locate_filed front hnal.separable.ne_nil (sized (nals.map Nal.unit)) hunit hnext
    rw [hbuf] at hlocate
    have hdrop : buf.drop (front.length + 4) = nal.unit ++ ([] ++ sized (nals.map Nal.unit)) := by
      have hlen : front.length + 4 = (front ++ bigEndian 4 nal.unit.length).length := by simp
      rw [← hbuf,← List.append_assoc,hlen,List.drop_left,List.nil_append]
    have hdecode : decodeNal scan (nal.unit ++ ([] ++ sized (nals.map Nal.unit))) nal.unit.length =
        ⟨nal.i_ref_idc,nal.i_type,nal.payload,nal.unit.length⟩ := by
      simpa [unstuff,unitEnd] using decodeNal_unit scan hnal [] (sized (nals.map Nal.unit))
    have hwhole : seemsTruncated autodetect buf next.length next.length = false := by
      simp [seemsTruncated]
    have hloop := ih hnals next hbuf' n (nal_index + 1) (by simpa using hn) next.length le_rfl
    have hbits := handed_bits nal.payload 0
    rw [List.replicate_zero,List.append_nil] at hbits
    rw [nalLoop,hlocate]
    dsimp only
    rw [hdrop,Nat.add_sub_cancel_left,hdecode]
    dsimp only
    rw [hnextlen,hwhole,Bool.or_false,hloop,hbits]
    rfl

lemma rb32_sized (front unit : List UInt8) (units : List (List UInt8)) (hsize : unit.length < 2 ^ 31) :
    rb32 (front ++ sized (unit :: units)) front.length = unit.length := by
  rw [sized_cons,rb32_eq (by simp only [List.length_append,bigEndian_length]; omega),List.drop_left,
    List.take_left' (bigEndian_length _ _),readOn_size hsize]

/-- The sizes of a file are not taken for start codes. -/
lemma detected_filed {units : List (List UInt8)} (h : ∀ unit ∈ units, unit ≠ [])
    (autodetect truncated : Bool) (hsize : (sized units).length < 2 ^ 31) :
    detected ⟨true,4,autodetect,truncated⟩ (sized units) = true := by
  have hnot : ¬ (8 < (sized units).length ∧ rb32 (sized units) 0 = 1 ∧
      (sized units).length < rb32 (sized units) 5) := by
    rintro ⟨hlong,hone,hlarge⟩
    rcases units with _ | ⟨unit,_ | ⟨next,units⟩⟩
    · simp [sized] at hlong
    · have hlen : (sized [unit]).length = 4 + unit.length := by simp [sized]
      have hfirst := rb32_sized [] unit [] (by omega)
      rw [List.nil_append,List.length_nil] at hfirst
      omega
    · have hlen : (sized (unit :: next :: units)).length =
          4 + (unit.length + (4 + (next.length + (sized units).length))) := by
        simp only [sized_cons,List.length_append,bigEndian_length]
      have hfirst := rb32_sized [] unit (next :: units) (by omega)
      rw [List.nil_append,List.length_nil] at hfirst
      have hsecond := rb32_sized (bigEndian 4 unit.length ++ unit) next units (by omega)
      have hfive : (bigEndian 4 unit.length ++ unit).length = 5 := by
        rw [List.length_append,bigEndian_length]
        omega
      rw [hfive,List.append_assoc,← sized_cons] at hsecond
      omega
  rw [detected,if_pos rfl,if_neg]
  · simp
  · simpa [and_assoc] using hnot

lemma annexb_length (pieces : List (Bool × List UInt8)) : pieces.length ≤ (annexb pieces).length := by
  induction pieces with
  | nil => exact Nat.zero_le _
  | cons piece pieces ih =>
    obtain ⟨long,unit⟩ := piece
    rw [annexb_cons]
    cases long <;> simp [startcode] <;> omega

lemma sized_length (units : List (List UInt8)) : units.length ≤ (sized units).length := by
  induction units with
  | nil => exact Nat.zero_le _
  | cons unit units ih =>
    rw [sized_cons]
    simp only [List.length_append,bigEndian_length,List.length_cons]
    omega

lemma nalUnits_streamed (scan : Scan) (autodetect : Bool) (leaves : ℕ → Bool) (i : ℕ)
    {nals : List Nal} (h : ∀ nal ∈ nals, Proper nal) :
    nalUnits scan leaves ⟨false,0,autodetect,false⟩ (encapsulate streamed i nals) =
      upTo leaves 1 (nals.map handed) := by
  obtain ⟨longs,hlongs,hstream⟩ := encapsulate_streamed i nals
  have hunits : (longs.zip (nals.map Nal.unit)).map Prod.snd = nals.map Nal.unit :=
    List.map_snd_zip (by simp [hlongs])
  have hrounds := annexb_length (longs.zip (nals.map Nal.unit))
  rw [List.length_zip,List.length_map,hlongs,min_self] at hrounds
  rw [hstream]
  exact nalLoop_streamed scan 0 autodetect leaves h hunits [] _ rfl _ 0 (by omega)

lemma nalUnits_filed (scan : Scan) (autodetect : Bool) (leaves : ℕ → Bool) (i : ℕ) {nals : List Nal}
    (h : ∀ nal ∈ nals, Proper nal) (hsize : (encapsulate filed i nals).length < 2 ^ 31) :
    nalUnits scan leaves ⟨true,4,autodetect,false⟩ (encapsulate filed i nals) =
      upTo leaves 1 (nals.map handed) := by
  rw [encapsulate_filed] at hsize ⊢
  have hne : ∀ unit ∈ nals.map Nal.unit, unit ≠ [] := by
    intro unit hunit
    obtain ⟨nal,hnal,rfl⟩ := List.mem_map.mp hunit
    exact (h nal hnal).separable.ne_nil
  have hrounds := sized_length (nals.map Nal.unit)
  rw [List.length_map] at hrounds
  rw [nalUnits,detected_filed hne autodetect false hsize]
  exact nalLoop_filed scan autodetect leaves h [] _ rfl hsize _ 0 (by omega) 0 le_rfl

end ZenMedia.H264
