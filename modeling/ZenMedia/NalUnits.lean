import ZenMedia.NalEncoding
import ZenMedia.StartCodeSearch

/-! How libavformat turns a stream with start codes into one with sizes, as the files it
writes need it, and what it makes of the units that x264 writes. -/
namespace ZenMedia.Avc
open ByteStuffing X264

/-- `while (nal_start < end && !*(nal_start++));` -/
def skipStart : List UInt8 → List UInt8
  | [] => []
  | b :: rest => if b = 0 then skipStart rest else rest

/-- The loop of `ff_avc_parse_nal_units` from `nal_start` on, for `n` rounds at most; `last` is
the address of the end. -/
def parseLoop (last : ℕ) : ℕ → List UInt8 → List UInt8
  | 0, _ => []
  | n + 1, bytes =>
    let unit := skipStart bytes
    if unit = [] then []
    else
      let size := findStartcode (last - unit.length) unit
      bigEndian 4 size ++ unit.take size ++ parseLoop last n (unit.drop size)

/-- `ff_avc_parse_nal_units`; what it returns is the size of what it writes. -/
def parseNalUnits (address : ℕ) (bytes : List UInt8) : List UInt8 :=
  parseLoop (address + bytes.length) bytes.length (bytes.drop (findStartcode address bytes))

/-! ### Units behind start codes -/

/-- A unit that keeps apart from the start codes around it. -/
structure Separable (unit : List UInt8) : Prop where
  ne_nil : unit ≠ []
  noStart : NoStart unit
  closed : Closed unit

/-- A start code of four bytes, or of three. -/
def startcode (long : Bool) : List UInt8 := if long then [0,0,0,1] else [0,0,1]

/-- Units behind their start codes. -/
def annexb (pieces : List (Bool × List UInt8)) : List UInt8 :=
  pieces.flatMap fun piece => startcode piece.1 ++ piece.2

/-- Units behind their sizes. -/
def sized (units : List (List UInt8)) : List UInt8 :=
  units.flatMap fun unit => bigEndian 4 unit.length ++ unit

lemma skipStart_startcode (long : Bool) (bytes : List UInt8) :
    skipStart (startcode long ++ bytes) = bytes := by
  cases long <;> simp [startcode,skipStart]

lemma startcode_append (long : Bool) (bytes : List UInt8) :
    startcode long ++ bytes = List.replicate long.toNat 0 ++ 0 :: 0 :: 1 :: bytes := by
  cases long <;> rfl

lemma findStartcode_eq (address : ℕ) (bytes : List UInt8) : findStartcode address bytes =
    if 0 < nextStart bytes && nextStart bytes < bytes.length &&
        byteAt bytes (nextStart bytes - 1) = 0 then nextStart bytes - 1
    else nextStart bytes := by
  rw [findStartcode,eq_nextStart (findStartcodeInternal_spec address bytes)]

/-- The end of a unit is found at the start code behind it, the long one included. -/
lemma findStartcode_unit {unit : List UInt8} (h : Separable unit) (address : ℕ) (long : Bool)
    (b : UInt8) (rest : List UInt8) :
    findStartcode address (unit ++ (startcode long ++ b :: rest)) = unit.length := by
  have hnext := nextStart_append h.noStart h.closed long.toNat b rest
  have hpos : 0 < unit.length := List.length_pos_of_ne_nil h.ne_nil
  rw [startcode_append,findStartcode_eq,hnext]
  cases long with
  | false =>
    have hlast : byteAt (unit ++ 0 :: 0 :: 1 :: b :: rest) (unit.length - 1) ≠ 0 := by
      have hclosed := h.closed
      rw [Closed,List.getLast?_eq_getElem?] at hclosed
      intro hzero
      apply hclosed
      rw [byteAt,List.getD_eq_getElem?_getD,List.getElem?_append_left (by omega)] at hzero
      rw [List.getElem?_eq_getElem (by omega)] at hzero ⊢
      exact congrArg some hzero
    simp [hlast]
  | true =>
    have hzero : byteAt (unit ++ 0 :: 0 :: 0 :: 1 :: b :: rest) unit.length = 0 := by
      simp [byteAt]
    simp [hzero]

lemma findStartcode_last {unit : List UInt8} (h : Separable unit) (address : ℕ) :
    findStartcode address unit = unit.length := by
  simp [findStartcode_eq,h.noStart.nextStart_eq]

/-- A stream that begins with a start code. -/
lemma findStartcode_start (address : ℕ) (long : Bool) (b : UInt8) (rest : List UInt8) :
    findStartcode address (startcode long ++ b :: rest) = 0 := by
  have hnext := nextStart_zeros long.toNat b rest
  rw [startcode_append,findStartcode_eq,hnext]
  cases long with
  | false => simp
  | true => simp [byteAt]

lemma annexb_cons (long : Bool) (unit : List UInt8) (pieces : List (Bool × List UInt8)) :
    annexb ((long,unit) :: pieces) = startcode long ++ (unit ++ annexb pieces) := by
  simp [annexb]

/-- Behind a unit comes the end, or a start code and a byte. -/
lemma annexb_cases {pieces : List (Bool × List UInt8)} (h : ∀ piece ∈ pieces, Separable piece.2) :
    annexb pieces = [] ∧ pieces = [] ∨
      ∃ long b rest, annexb pieces = startcode long ++ b :: rest := by
  rcases pieces with _ | ⟨⟨long,unit⟩,pieces⟩
  · exact .inl ⟨rfl,rfl⟩
  · obtain ⟨b,rest,hunit⟩ := List.exists_cons_of_ne_nil (h _ List.mem_cons_self).ne_nil
    refine .inr ⟨long,b,rest ++ annexb pieces,?_⟩
    rw [annexb_cons]
    simp only at hunit
    rw [hunit]
    rfl

lemma findStartcode_piece {unit : List UInt8} (hunit : Separable unit)
    {pieces : List (Bool × List UInt8)} (h : ∀ piece ∈ pieces, Separable piece.2) (address : ℕ) :
    findStartcode address (unit ++ annexb pieces) = unit.length := by
  rcases annexb_cases h with ⟨hnil,-⟩ | ⟨long,b,rest,hnext⟩
  · rw [hnil,List.append_nil]
    exact findStartcode_last hunit address
  · rw [hnext]
    exact findStartcode_unit hunit address long b rest

lemma parseLoop_annexb (last n : ℕ) {pieces : List (Bool × List UInt8)}
    (h : ∀ piece ∈ pieces, Separable piece.2) (hn : (annexb pieces).length ≤ n) :
    parseLoop last n (annexb pieces) = sized (pieces.map Prod.snd) := by
  induction pieces generalizing n with
  | nil =>
    cases n with
    | zero => rfl
    | succ n => simp [parseLoop,annexb,skipStart,sized]
  | cons piece pieces ih =>
    obtain ⟨long,unit⟩ := piece
    have hunit : Separable unit := h (long,unit) List.mem_cons_self
    have hrest : ∀ piece ∈ pieces, Separable piece.2 := fun piece hp => h piece (List.mem_cons_of_mem _ hp)
    rw [annexb_cons] at hn ⊢
    cases n with
    | zero =>
      exfalso
      cases long <;> simp [startcode] at hn
    | succ n =>
      have hlen : (annexb pieces).length ≤ n := by
        simp only [List.length_append] at hn
        have hpos : 0 < unit.length := List.length_pos_of_ne_nil hunit.ne_nil
        omega
      have hne : unit ++ annexb pieces ≠ [] := by simp [hunit.ne_nil]
      rw [parseLoop,skipStart_startcode]
      simp only [hne,if_false,findStartcode_piece hunit hrest,List.take_left,List.drop_left,
        ih n hrest hlen]
      simp [sized]

/-- What is behind start codes is put behind sizes. -/
theorem parseNalUnits_annexb (address : ℕ) {pieces : List (Bool × List UInt8)}
    (h : ∀ piece ∈ pieces, Separable piece.2) :
    parseNalUnits address (annexb pieces) = sized (pieces.map Prod.snd) := by
  have hstart : findStartcode address (annexb pieces) = 0 := by
    rcases annexb_cases h with ⟨hnil,-⟩ | ⟨long,b,rest,hnext⟩
    · rw [hnil]
      rfl
    · rw [hnext]
      exact findStartcode_start address long b rest
  rw [parseNalUnits,hstart,List.drop_zero]
  exact parseLoop_annexb _ _ h le_rfl

/-! ### The units of x264 -/

/-- What the encoder sees to: a priority and a type that fit into the header, and a payload
that ends in the stop bit. -/
structure Proper (nal : Nal) : Prop where
  i_ref_idc : nal.i_ref_idc < 4
  i_type_pos : 0 < nal.i_type
  i_type : nal.i_type < 32
  closed : Closed nal.payload

lemma Proper.header_toNat {nal : Nal} (h : Proper nal) :
    nal.header.toNat = 32 * nal.i_ref_idc + nal.i_type := by
  have hor : nal.i_ref_idc <<< 5 ||| nal.i_type = nal.i_ref_idc <<< 5 + nal.i_type :=
    (Nat.shiftLeft_add_eq_or_of_lt h.i_type _).symm
  have href := h.i_ref_idc
  have htype := h.i_type
  rw [Nal.header,UInt8.toNat_ofNat',hor,Nat.shiftLeft_eq]
  omega

lemma Proper.header_ne_zero {nal : Nal} (h : Proper nal) : nal.header ≠ 0 := by
  intro hzero
  have hnat := h.header_toNat
  have hpos := h.i_type_pos
  rw [hzero] at hnat
  change 0 = _ at hnat
  omega

lemma nalEscape_noEnd (src : List UInt8) : NoEnd (nalEscape src) := by
  rcases src with _ | ⟨a,_ | ⟨b,src⟩⟩
  · trivial
  · exact ⟨rfl,trivial⟩
  · have hstuff := stuff_noEnd a b src
    rw [nalEscape]
    by_cases hb : b = 0
    · subst hb
      by_cases ha : a = 0
      · subst ha
        exact hstuff
      · rw [pending_zero ha] at hstuff
        exact hstuff.cons ha
    · rw [pending_ne hb] at hstuff
      by_cases ha : a = 0
      · subst ha
        exact hstuff.zero_cons hb
      · exact (hstuff.cons hb).cons ha

lemma nalEscape_getLast? (src : List UInt8) : (nalEscape src).getLast? = src.getLast? := by
  rcases src with _ | ⟨a,_ | ⟨b,src⟩⟩
  · rfl
  · rfl
  · rw [nalEscape,List.getLast?_cons_cons,List.getLast?_cons_cons,List.getLast?_cons,
      List.getLast?_cons,stuff_getLast?]

lemma Proper.separable {nal : Nal} (h : Proper nal) : Separable nal.unit := by
  refine ⟨by simp [Nal.unit],((nalEscape_noEnd nal.payload).cons h.header_ne_zero).noStart,?_⟩
  have hclosed := h.closed
  unfold Closed at hclosed ⊢
  rw [Nal.unit,List.getLast?_cons,nalEscape_getLast?]
  cases hlast : nal.payload.getLast? with
  | none => simpa using h.header_ne_zero
  | some b =>
    rw [hlast] at hclosed
    simpa using hclosed

/-- The units as the encoder writes them for streams, and for files. -/
def streamed : Param := ⟨true,0⟩
def filed : Param := ⟨false,0⟩

lemma nalEncode_streamed (nal : Nal) :
    nalEncode streamed nal = startcode nal.b_long_startcode ++ nal.unit := by
  simp [nalEncode,streamed,Nal.startcode,startcode]

lemma nalEncode_filed (nal : Nal) : nalEncode filed nal = bigEndian 4 nal.unit.length ++ nal.unit := by
  simp [nalEncode,filed]

/-- What the encoder writes for a stream. -/
lemma encapsulate_streamed (i : ℕ) (nals : List Nal) : ∃ longs : List Bool,
    longs.length = nals.length ∧
      encapsulate streamed i nals = annexb (longs.zip (nals.map Nal.unit)) := by
  induction nals generalizing i with
  | nil => exact ⟨[],rfl,rfl⟩
  | cons nal nals ih =>
    obtain ⟨longs,hlongs,hrest⟩ := ih (i + 1)
    refine ⟨nal.isLong streamed i :: longs,congrArg Nat.succ hlongs,?_⟩
    rw [encapsulate,nalEncode_streamed,hrest,List.map_cons,List.zip_cons_cons,annexb_cons,
      List.append_assoc]
    rfl

lemma encapsulate_filed (i : ℕ) (nals : List Nal) :
    encapsulate filed i nals = sized (nals.map Nal.unit) := by
  induction nals generalizing i with
  | nil => rfl
  | cons nal nals ih =>
    rw [encapsulate,nalEncode_filed,ih]
    rfl

/-- Made from the stream that x264 writes, the file has what x264 writes for files. -/
theorem parseNalUnits_encapsulate (address i : ℕ) (nals : List Nal) (h : ∀ nal ∈ nals, Proper nal) :
    parseNalUnits address (encapsulate streamed i nals) = encapsulate filed i nals := by
  obtain ⟨longs,hlongs,hstream⟩ := encapsulate_streamed i nals
  have hunits : (longs.zip (nals.map Nal.unit)).map Prod.snd = nals.map Nal.unit :=
    List.map_snd_zip (by simp [hlongs])
  have hseparable : ∀ piece ∈ longs.zip (nals.map Nal.unit), Separable piece.2 := by
    intro piece hpiece
    obtain ⟨nal,hnal,hunit⟩ := List.mem_map.mp (List.of_mem_zip hpiece).2
    rw [← hunit]
    exact (h nal hnal).separable
  rw [hstream,parseNalUnits_annexb address hseparable,hunits,encapsulate_filed]

/-- A parameter set and a slice with an escape in it. -/
theorem parseNalUnits_escaped :
    parseNalUnits 1 [0,0,0,1,103,66,128,0,0,1,101,7,0,0,3,1,128] =
      [0,0,0,3,103,66,128,0,0,0,7,101,7,0,0,3,1,128] := by
  refine parseNalUnits_encapsulate 1 0
    [⟨3,7,true,[66,128],0⟩,⟨3,5,true,[7,0,0,1,128],0⟩] ?_
  simp only [List.mem_cons,List.not_mem_nil,or_false,forall_eq_or_imp,forall_eq]
  exact ⟨⟨by decide,by decide,by decide,by decide⟩,⟨by decide,by decide,by decide,by decide⟩⟩

end ZenMedia.Avc
