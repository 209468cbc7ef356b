import ZenMedia.NalUnits
import ZenMedia.NalSplitting

/-! The configuration record that an MP4 file keeps of an H.264 stream: how libavformat makes it
out of the stream's headers, and the headers out of it again. -/
namespace ZenMedia.Avc
open ByteStuffing X264 H264

/-- `AV_RB24` -/
def rb24 (buf : List UInt8) (i : ℕ) : ℕ :=
  readOn 0 [byteAt buf i,byteAt buf (i + 1),byteAt buf (i + 2)]

/-- `AV_RB16` -/
def rb16 (buf : List UInt8) (i : ℕ) : ℕ := readOn 0 [byteAt buf i,byteAt buf (i + 1)]

/-- The test for a start code in front. -/
def startsStream (data : List UInt8) : Bool := rb32 data 0 = 1 || rb24 data 0 = 1

def nalType (unit : List UInt8) : ℕ := (byteAt unit 0).toNat &&& 0x1f

/-- The loop that looks for `sps` and `pps`, for `n` units at most. -/
def parameterSets : ℕ → List UInt8 → Option (List UInt8) → Option (List UInt8) →
    Option (List UInt8) × Option (List UInt8)
  | 0, _, sps, pps => (sps,pps)
  | n + 1, buf, sps, pps =>
    if 4 < buf.length then
      let size := min (rb32 buf 0) (buf.length - 4)
      let unit := buf.drop 4
      if nalType unit = 7 then parameterSets n (unit.drop size) (some (unit.take size)) pps
      else if nalType unit = 8 then parameterSets n (unit.drop size) sps (some (unit.take size))
      else parameterSets n (unit.drop size) sps pps
    else (sps,pps)

/-- The bytes that are written for the two parameter sets. -/
def avccRecord (sps pps : List UInt8) : List UInt8 :=
  [1,byteAt sps 1,byteAt sps 2,byteAt sps 3,0xff,0xe1] ++ (bigEndian 2 sps.length ++
    (sps ++ ([1] ++ (bigEndian 2 pps.length ++ pps))))

/-- What is written, or nothing for `AVERROR_INVALIDDATA`. -/
def isomWriteAvcc (address : ℕ) (data : List UInt8) : Option (List UInt8) :=
  if 6 < data.length then
    if startsStream data then
      let buf := parseNalUnits address data
      match parameterSets buf.length buf none none with
      | (some sps,some pps) =>
        if sps.length < 4 ∨ 65535 < sps.length ∨ 65535 < pps.length then none
        else some (avccRecord sps pps)
      | _ => none
    else some data
  else some []

/-- What `*buf` is set to, null for a stream that has start codes; nothing for
`AVERROR_INVALIDDATA`. -/
def writeAnnexbExtradata (input : List UInt8) : Option (Option (List UInt8)) :=
  if 4 ≤ input.length ∧ startsStream input then some none
  else if input.length < 11 ∨ byteAt input 0 ≠ 1 then none
  else
    let sps_size := rb16 input 6
    if input.length < 11 + sps_size then none
    else
      let pps_size := rb16 input (9 + sps_size)
      if input.length < 11 + sps_size + pps_size then none
      else some (some ([0,0,0,1] ++ (input.drop 8).take sps_size ++
        ([0,0,0,1] ++ (input.drop (11 + sps_size)).take pps_size)))

/-! ### Finding the parameter sets -/

/-- The last unit of a type. -/
def lastOfType (type : ℕ) (units : List (List UInt8)) : Option (List UInt8) :=
  (units.filter fun unit => nalType unit = type).getLast?

lemma lastOfType_cons (type : ℕ) (unit : List UInt8) (units : List (List UInt8))
    (before : Option (List UInt8)) : (lastOfType type (unit :: units)).or before =
      (lastOfType type units).or (if nalType unit = type then some unit else before) := by
  simp only [lastOfType]
  by_cases h : nalType unit = type
  · rw [List.filter_cons_of_pos (by simpa using h),if_pos h,List.getLast?_cons]
    cases (units.filter fun unit => nalType unit = type).getLast? <;> rfl
  · rw [List.filter_cons_of_neg (by simpa using h),if_neg h]

lemma rb32_size {unit : List UInt8} (h : unit.length < 2 ^ 32) (rest : List UInt8) :
    rb32 (bigEndian 4 unit.length ++ rest) 0 = unit.length := by
  have hlen : 0 + 4 ≤ (bigEndian 4 unit.length ++ rest).length := by simp
  rw [rb32_eq hlen,List.drop_zero,List.take_left' (bigEndian_length 4 _),readOn_bigEndian 4 _ 0 h]
  omega

lemma sized_cons (unit : List UInt8) (units : List (List UInt8)) :
    sized (unit :: units) = bigEndian 4 unit.length ++ (unit ++ sized units) := by
  simp [sized]

lemma nalType_append {unit : List UInt8} (h : unit ≠ []) (rest : List UInt8) :
    nalType (unit ++ rest) = nalType unit := by
  cases unit with
  | nil => exact absurd rfl h
  | cons b unit => rfl

lemma parameterSets_sized {units : List (List UInt8)} {n : ℕ} (hn : (sized units).length ≤ n)
    (hne : ∀ unit ∈ units, unit ≠ []) (hlen : ∀ unit ∈ units, unit.length < 2 ^ 32)
    (sps pps : Option (List UInt8)) : parameterSets n (sized units) sps pps =
      ((lastOfType 7 units).or sps,(lastOfType 8 units).or pps) := by
  induction units generalizing n sps pps with
  | nil => cases n <;> simp [parameterSets,sized,lastOfType]
  | cons unit units ih =>
    have hunit := List.length_pos_of_ne_nil (hne unit List.mem_cons_self)
    have hrest := fun later hmem => hne later (List.mem_cons_of_mem unit hmem)
    have hrest' := fun later hmem => hlen later (List.mem_cons_of_mem unit hmem)
    rw [sized_cons] at hn ⊢
    simp only [List.length_append,bigEndian_length] at hn
    cases n with
    | zero => omega
    | succ n =>
      have hlong : 4 < (bigEndian 4 unit.length ++ (unit ++ sized units)).length := by
        simp only [List.length_append,bigEndian_length]
        omega
      have hsize : min (rb32 (bigEndian 4 unit.length ++ (unit ++ sized units)) 0)
          ((bigEndian 4 unit.length ++ (unit ++ sized units)).length - 4) = unit.length := by
        rw [rb32_size (hlen unit List.mem_cons_self)]
        simp only [List.length_append,bigEndian_length]
        omega
      have hdrop : (bigEndian 4 unit.length ++ (unit ++ sized units)).drop 4 = unit ++ sized units :=
        List.drop_left' (bigEndian_length 4 _)
      simp only [parameterSets,hsize,hdrop,List.drop_left,List.take_left,
        nalType_append (hne unit List.mem_cons_self)]
      rw [if_pos hlong,lastOfType_cons,lastOfType_cons,ih (by omega) hrest hrest',
        ih (by omega) hrest hrest',ih (by omega) hrest hrest']
      split_ifs with hseven height height
      · omega
      · rfl
      · rfl
      · rfl

lemma startsStream_annexb {pieces : List (Bool × List UInt8)} (h : pieces ≠ []) :
    startsStream (annexb pieces) = true := by
  obtain ⟨⟨long,unit⟩,rest,rfl⟩ := List.exists_cons_of_ne_nil h
  rw [annexb_cons]
  cases long <;> simp [startsStream,startcode,rb32,rb24,byteAt,readOn]

/-- What is written of a stream whose units are behind start codes. -/
lemma isomWriteAvcc_annexb (address : ℕ) {pieces : List (Bool × List UInt8)}
    (h : ∀ piece ∈ pieces, Separable piece.2) (hlen : ∀ piece ∈ pieces, piece.2.length < 2 ^ 32)
    (hlong : 6 < (annexb pieces).length) {sps pps : List UInt8}
    (hsps : lastOfType 7 (pieces.map Prod.snd) = some sps)
    (hpps : lastOfType 8 (pieces.map Prod.snd) = some pps) :
    isomWriteAvcc address (annexb pieces) =
      if sps.length < 4 ∨ 65535 < sps.length ∨ 65535 < pps.length then none
      else some (avccRecord sps pps) := by
  have hpieces : pieces ≠ [] := by
    rintro rfl
    exact absurd hlong (by decide)
  have hne : ∀ unit ∈ pieces.map Prod.snd, unit ≠ [] := by
    intro unit hmem
    obtain ⟨piece,hpiece,rfl⟩ := List.mem_map.mp hmem
    exact (h piece hpiece).ne_nil
  have hshort : ∀ unit ∈ pieces.map Prod.snd, unit.length < 2 ^ 32 := by
    intro unit hmem
    obtain ⟨piece,hpiece,rfl⟩ := List.mem_map.mp hmem
    exact hlen piece hpiece
  simp only [isomWriteAvcc,parseNalUnits_annexb address h,startsStream_annexb hpieces,if_true,
    if_pos hlong,parameterSets_sized le_rfl hne hshort,hsps,hpps,Option.some_or]

/-! ### Reading the record back -/

lemma rb16_append {before : List UInt8} {i n : ℕ} (hi : before.length = i) (hn : n ≤ 65535)
    (rest : List UInt8) : rb16 (before ++ (bigEndian 2 n ++ rest)) i = n := by
  have hbytes : rb16 (before ++ (bigEndian 2 n ++ rest)) i = readOn 0 (bigEndian 2 n) := by
    subst hi
    simp [rb16,byteAt,bigEndian]
  rw [hbytes,readOn_bigEndian 2 n 0 (by omega)]
  omega

lemma avccRecord_length (sps pps : List UInt8) :
    (avccRecord sps pps).length = 11 + sps.length + pps.length := by
  simp only [avccRecord,List.length_append,List.length_cons,List.length_nil,bigEndian_length]
  omega

lemma startsStream_record (sps pps : List UInt8) : startsStream (avccRecord sps pps) = false := by
  have hone : byteAt (avccRecord sps pps) 0 = 1 := rfl
  have hnat : (1 : UInt8).toNat = 1 := rfl
  simp only [startsStream,rb32,rb24,hone,readOn,List.foldl_cons,List.foldl_nil,hnat,Bool.or_eq_false_iff,
    decide_eq_false_iff_not]
  omega

/-- The extradata is the two parameter sets behind start codes. -/
lemma writeAnnexbExtradata_record {sps pps : List UInt8} (hsps : sps.length ≤ 65535)
    (hpps : pps.length ≤ 65535) :
    writeAnnexbExtradata (avccRecord sps pps) = some (some (annexb [(true,sps),(true,pps)])) := by
  have hlength := avccRecord_length sps pps
  obtain ⟨six,hsix,hrecord⟩ : ∃ six : List UInt8, six.length = 6 ∧ avccRecord sps pps =
      six ++ (bigEndian 2 sps.length ++ (sps ++ ([1] ++ (bigEndian 2 pps.length ++ pps)))) :=
    ⟨[1,byteAt sps 1,byteAt sps 2,byteAt sps 3,0xff,0xe1],rfl,rfl⟩
  have hfront : avccRecord sps pps = (six ++ bigEndian 2 sps.length) ++
      (sps ++ ([1] ++ (bigEndian 2 pps.length ++ pps))) := by
    rw [hrecord,List.append_assoc]
  have hmiddle : avccRecord sps pps = (six ++ bigEndian 2 sps.length ++ (sps ++ [1])) ++
      (bigEndian 2 pps.length ++ pps) := by
    rw [hfront]
    simp only [List.append_assoc]
  have hback : avccRecord sps pps = (six ++ bigEndian 2 sps.length ++ (sps ++ [1]) ++
      bigEndian 2 pps.length) ++ pps := by
    rw [hmiddle]
    simp only [List.append_assoc]
  have hfirst : rb16 (avccRecord sps pps) 6 = sps.length := by
    rw [hrecord]
    exact rb16_append hsix hsps _
  have hsecond : rb16 (avccRecord sps pps) (9 + sps.length) = pps.length := by
    rw [hmiddle]
    apply rb16_append _ hpps
    simp only [List.length_append,List.length_cons,List.length_nil,bigEndian_length,hsix]
    omega
  have htake : ((avccRecord sps pps).drop 8).take sps.length = sps := by
    rw [hfront,List.drop_left' (by simp [hsix]),List.take_left]
  have htake' : ((avccRecord sps pps).drop (11 + sps.length)).take pps.length = pps := by
    have hdrop : (six ++ bigEndian 2 sps.length ++ (sps ++ [1]) ++ bigEndian 2 pps.length).length =
        11 + sps.length := by
      simp only [List.length_append,List.length_cons,List.length_nil,bigEndian_length,hsix]
      omega
    rw [hback,List.drop_left' hdrop,List.take_length]
  have hstream : ¬(4 ≤ (avccRecord sps pps).length ∧ startsStream (avccRecord sps pps) = true) := by
    rw [startsStream_record]
    simp
  have hvalid : ¬((avccRecord sps pps).length < 11 ∨ byteAt (avccRecord sps pps) 0 ≠ 1) := by
    rw [hlength,not_or,not_not]
    exact ⟨by omega,rfl⟩
  simp only [writeAnnexbExtradata,hfirst,hsecond,htake,htake']
  rw [if_neg hstream,if_neg hvalid,if_neg (by omega),if_neg (by omega)]
  simp [annexb,startcode]

lemma lastOfType_mem {type : ℕ} {units : List (List UInt8)} {unit : List UInt8}
    (h : lastOfType type units = some unit) : unit ∈ units ∧ nalType unit = type := by
  have hmem := List.mem_of_getLast? h
  rw [List.mem_filter,decide_eq_true_eq] at hmem
  exact hmem

/-- Headers as x264 writes them become a record, the record becomes a pair of headers, and these
become the same record: nothing of the last parameter sets is lost on the way through a file. -/
theorem isomWriteAvcc_back (address i : ℕ) {nals : List Nal} (h : ∀ nal ∈ nals, Proper nal)
    (hlen : ∀ nal ∈ nals, nal.unit.length < 2 ^ 32) {sps pps : List UInt8}
    (hsps : lastOfType 7 (nals.map Nal.unit) = some sps)
    (hpps : lastOfType 8 (nals.map Nal.unit) = some pps)
    (hsize : 4 ≤ sps.length ∧ sps.length ≤ 65535) (hsize' : pps.length ≤ 65535) :
    isomWriteAvcc address (encapsulate streamed i nals) = some (avccRecord sps pps) ∧
    writeAnnexbExtradata (avccRecord sps pps) = some (some (annexb [(true,sps),(true,pps)])) ∧
    ∀ address', isomWriteAvcc address' (annexb [(true,sps),(true,pps)]) =
      some (avccRecord sps pps) := by
  have hunit : ∀ unit ∈ nals.map Nal.unit, Separable unit ∧ unit.length < 2 ^ 32 := by
    intro unit hmem
    obtain ⟨nal,hnal,rfl⟩ := List.mem_map.mp hmem
    exact ⟨(h nal hnal).separable,hlen nal hnal⟩
  obtain ⟨hspsmem,hspstype⟩ := lastOfType_mem hsps
  obtain ⟨hppsmem,hppstype⟩ := lastOfType_mem hpps
  have hfits : ¬(sps.length < 4 ∨ 65535 < sps.length ∨ 65535 < pps.length) := by omega
  refine ⟨?_,writeAnnexbExtradata_record hsize.2 hsize',?_⟩
  · obtain ⟨longs,hlongs,hstream⟩ := encapsulate_streamed i nals
    have hunits : (longs.zip (nals.map Nal.unit)).map Prod.snd = nals.map Nal.unit :=
      List.map_snd_zip (by simp [hlongs])
    have hpieces : ∀ piece ∈ longs.zip (nals.map Nal.unit),
        Separable piece.2 ∧ piece.2.length < 2 ^ 32 := fun piece hpiece =>
      hunit _ (List.of_mem_zip hpiece).2
    have hlong : 6 < (annexb (longs.zip (nals.map Nal.unit))).length := by
      rw [← hunits] at hspsmem
      obtain ⟨⟨long,unit⟩,hpiece,rfl⟩ := List.mem_map.mp hspsmem
      obtain ⟨before,after,hsplit⟩ := List.append_of_mem hpiece
      rw [hsplit,annexb,List.flatMap_append,List.flatMap_cons]
      have hstart : 3 ≤ (startcode long).length := by cases long <;> decide
      simp only [List.length_append]
      have hsps4 : 4 ≤ unit.length := hsize.1
      omega
    rw [hstream,isomWriteAvcc_annexb address (fun piece hpiece => (hpieces piece hpiece).1)
      (fun piece hpiece => (hpieces piece hpiece).2) hlong (by rw [hunits]; exact hsps)
      (by rw [hunits]; exact hpps),if_neg hfits]
  · intro address'
    have hpieces : ∀ piece ∈ [(true,sps),(true,pps)],
        Separable piece.2 ∧ piece.2.length < 2 ^ 32 := by
      intro piece hpiece
      simp only [List.mem_cons,List.not_mem_nil,or_false] at hpiece
      rcases hpiece with rfl | rfl
      · exact hunit sps hspsmem
      · exact hunit pps hppsmem
    have hlast : lastOfType 7 ([(true,sps),(true,pps)].map Prod.snd) = some sps ∧
        lastOfType 8 ([(true,sps),(true,pps)].map Prod.snd) = some pps := by
      simp [lastOfType,hspstype,hppstype]
    have hlong : 6 < (annexb [(true,sps),(true,pps)]).length := by
      simp only [annexb,startcode,List.flatMap_cons,List.length_append,if_true,List.length_cons]
      omega
    rw [isomWriteAvcc_annexb address' (fun piece hpiece => (hpieces piece hpiece).1)
      (fun piece hpiece => (hpieces piece hpiece).2) hlong hlast.1 hlast.2,if_neg hfits]

/-- A stream whose first parameter set is replaced by a later one. -/
theorem isomWriteAvcc_back_replaced :
    isomWriteAvcc 1 [0,0,0,1,103,77,0,31,128,0,0,0,1,103,66,0,30,128,0,0,0,1,104,206,128] =
      some [1,66,0,30,255,225,0,5,103,66,0,30,128,1,0,3,104,206,128] := by
  have hproper : ∀ nal ∈ ([⟨3,7,true,[77,0,31,128],0⟩,⟨3,7,true,[66,0,30,128],0⟩,
      ⟨3,8,true,[206,128],0⟩] : List Nal), Proper nal := by
    simp only [List.mem_cons,List.not_mem_nil,or_false,forall_eq_or_imp,forall_eq]
    exact ⟨⟨by decide,by decide,by decide,by decide⟩,⟨by decide,by decide,by decide,by decide⟩,
      ⟨by decide,by decide,by decide,by decide⟩⟩
  have hsps : lastOfType 7 (([⟨3,7,true,[77,0,31,128],0⟩,⟨3,7,true,[66,0,30,128],0⟩,
      ⟨3,8,true,[206,128],0⟩] : List Nal).map Nal.unit) = some [103,66,0,30,128] := by decide
  have hpps : lastOfType 8 (([⟨3,7,true,[77,0,31,128],0⟩,⟨3,7,true,[66,0,30,128],0⟩,
      ⟨3,8,true,[206,128],0⟩] : List Nal).map Nal.unit) = some [104,206,128] := by decide
  exact (isomWriteAvcc_back 1 0 hproper (by decide) hsps hpps (by decide) (by decide)).1

end ZenMedia.Avc
