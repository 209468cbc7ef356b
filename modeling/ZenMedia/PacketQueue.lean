import ZenMedia.PacketFields

/-! The muxer's list of packets that wait for those of other streams: where a packet is linked
in, when the first one is taken out, and what has been written after any run of calls. -/
namespace ZenMedia.Avformat
open Avutil

/-- A node of the list, with its address. -/
structure AVPacketList where
  address : ℕ
  pkt : AVPacket
  deriving DecidableEq, Repr

/-- The nodes from `packet_buffer` on, for each stream the pointer to its last node, and the
next address that is free. -/
structure Internal where
  packet_buffer : List AVPacketList
  last_in_packet_buffer : ℕ → Option ℕ
  free : ℕ

def Internal.init : Internal := ⟨[],fun _ => none,0⟩

def avTimeBaseQ : AVRational := ⟨1,1000000⟩

/-- Whether `pkt` goes before `next`. -/
def interleaveCompareDts (s : AVFormatContext) (next pkt : AVPacket) : Bool :=
  let comp := avCompareTs next.dts (s.streams next.stream_index).time_base.toAVRational pkt.dts
    (s.streams pkt.stream_index).time_base.toAVRational
  if comp = 0 then pkt.stream_index < next.stream_index else 0 < comp

/-- The nodes from `*next_point` on, where `next_point` starts. -/
def following (buffer : List AVPacketList) : Option ℕ → List AVPacketList
  | none => buffer
  | some address => (buffer.dropWhile fun node => node.address ≠ address).tail

/-- The nodes that a packet is linked in before. -/
def behind (compare : AVPacket → AVPacket → Bool) (buffer after : List AVPacketList)
    (pkt : AVPacket) : List AVPacketList :=
  if after = [] then []
  else if buffer.getLast?.any fun last => compare last.pkt pkt then
    after.dropWhile fun node => !compare node.pkt pkt
  else []

def interleaveAddPacket (compare : AVPacket → AVPacket → Bool) (q : Internal) (pkt : AVPacket) :
    Internal :=
  let rest := behind compare q.packet_buffer
    (following q.packet_buffer (q.last_in_packet_buffer pkt.stream_index)) pkt
  { packet_buffer :=
      q.packet_buffer.take (q.packet_buffer.length - rest.length) ++ ⟨q.free,pkt⟩ :: rest
    last_in_packet_buffer := Function.update q.last_in_packet_buffer pkt.stream_index (some q.free)
    free := q.free + 1 }

/-- The largest distance from the first packet to the last one of a stream. -/
def deltaDts (s : AVFormatContext) (q : Internal) (top : AVPacket) : ℤ :=
  let rescaled (pkt : AVPacket) :=
    avRescaleQ pkt.dts (s.streams pkt.stream_index).time_base.toAVRational avTimeBaseQ
  (List.range s.nb_streams).foldl (fun delta i =>
    match q.last_in_packet_buffer i with
    | none => delta
    | some address =>
      match q.packet_buffer.find? fun node => node.address = address with
      | none => delta
      | some last => max delta (int64 (rescaled last.pkt - rescaled top))) int64Min

/-- The streams that have a packet in the list. -/
def streamCount (s : AVFormatContext) (q : Internal) : ℕ :=
  (List.range s.nb_streams).countP fun i => (q.last_in_packet_buffer i).isSome

def noninterleavedCount (s : AVFormatContext) (q : Internal) : ℕ :=
  (List.range s.nb_streams).countP fun i => (q.last_in_packet_buffer i).isNone &&
    !(s.streams i).isAttachment && !(s.streams i).codec.isVp8OrVp9

def nbInterleavedStreams (s : AVFormatContext) : ℕ :=
  (List.range s.nb_streams).countP fun i => !(s.streams i).isAttachment

/-- Whether `ff_interleave_packet_per_dts` outputs the first packet. -/
def outputs (s : AVFormatContext) (q : Internal) (flush : Bool) : Bool :=
  let flush := flush || nbInterleavedStreams s = streamCount s q
  let forced := match q.packet_buffer with
    | [] => false
    | top :: _ => 0 < s.max_interleave_delta && !flush &&
        nbInterleavedStreams s = streamCount s q + noninterleavedCount s q &&
        s.max_interleave_delta < deltaDts s q top.pkt
  streamCount s q ≠ 0 && (flush || forced)

/-- The first node is unlinked. -/
def unlink (q : Internal) : Option (AVPacket × Internal) :=
  match q.packet_buffer with
  | [] => none
  | node :: rest => some (node.pkt,{ q with
      packet_buffer := rest
      last_in_packet_buffer :=
        if q.last_in_packet_buffer node.pkt.stream_index = some node.address then
          Function.update q.last_in_packet_buffer node.pkt.stream_index none
        else q.last_in_packet_buffer })

/-- The loop that writes packets as long as they come out and `write_packet` succeeds, which
`writes` says of all that has been handed to it: that, and the list. -/
def writeLoop (s : AVFormatContext) (writes : List AVPacket → Bool) (flush : Bool) :
    ℕ → List AVPacket × Internal → List AVPacket × Internal
  | 0, r => r
  | n + 1, r =>
    if outputs s r.2 flush then
      match unlink r.2 with
      | none => r
      | some (pkt,q) =>
        if writes (r.1 ++ [pkt]) then writeLoop s writes flush n (r.1 ++ [pkt],q)
        else (r.1 ++ [pkt],q)
    else r

/-- The loop of `av_interleaved_write_frame`, with no packet to flush. `av_write_trailer` begins
with the same flush. -/
def interleaveFrame (s : AVFormatContext) (writes : List AVPacket → Bool)
    (r : List AVPacket × Internal) : Option AVPacket → List AVPacket × Internal
  | none => writeLoop s writes true r.2.packet_buffer.length r
  | some pkt =>
    let q := interleaveAddPacket (interleaveCompareDts s) r.2 pkt
    writeLoop s writes false q.packet_buffer.length (r.1,q)

/-- A whole call, with what the streams remember. -/
def interleavedWriteFrame (s : AVFormatContext) (writes : List AVPacket → Bool)
    (r : (ℕ → StreamTiming) × List AVPacket × Internal) :
    Option AVPacket → (ℕ → StreamTiming) × List AVPacket × Internal
  | none => (r.1,interleaveFrame s writes r.2 none)
  | some pkt =>
    match acceptPacket s r.1 pkt with
    | (none,timings) => (timings,r.2)
    | (some pkt,timings) => (timings,interleaveFrame s writes r.2 (some pkt))

/-- All packets that are handed to `write_packet` by a run of calls once the header is written,
and the list after it. -/
def writeFrames (s : AVFormatContext) (writes : List AVPacket → Bool)
    (calls : List (Option AVPacket)) : List AVPacket × Internal :=
  (calls.foldl (interleavedWriteFrame s writes) (fun i => .init (s.streams i),[],.init)).2

/-! ### Without the refused packets -/

/-- A run of calls whose packets are all taken as they are. -/
def interleaveFrames (s : AVFormatContext) (writes : List AVPacket → Bool)
    (calls : List (Option AVPacket)) : List AVPacket × Internal :=
  calls.foldl (interleaveFrame s writes) ([],.init)

lemma foldl_acceptCalls (s : AVFormatContext) (writes : List AVPacket → Bool)
    (calls : List (Option AVPacket)) (timings : ℕ → StreamTiming) (r : List AVPacket × Internal) :
    (acceptCalls s timings calls).foldl (interleaveFrame s writes) r =
      (calls.foldl (interleavedWriteFrame s writes) (timings,r)).2 := by
  induction calls generalizing timings r with
  | nil => rfl
  | cons call calls ih =>
    rw [List.foldl_cons]
    cases call with
    | none => exact ih _ _
    | some pkt =>
      rw [acceptCalls,interleavedWriteFrame]
      rcases acceptPacket s timings pkt with ⟨_ | taken,timings'⟩
      · exact ih timings' r
      · exact ih timings' _

/-- A refused packet is as good as one that was never given. -/
lemma writeFrames_eq (s : AVFormatContext) (writes : List AVPacket → Bool)
    (calls : List (Option AVPacket)) : writeFrames s writes calls =
      interleaveFrames s writes (acceptCalls s (fun i => .init (s.streams i)) calls) :=
  (foldl_acceptCalls s writes calls _ ([],.init)).symm

/-- What holds whenever a packet has come out holds after the loop. -/
lemma writeLoop_keeps (s : AVFormatContext) (writes : List AVPacket → Bool) {flush : Bool}
    {P : List AVPacket → Internal → Prop} (hstep : ∀ written q pkt rest, P written q →
      outputs s q flush = true → unlink q = some (pkt,rest) → P (written ++ [pkt]) rest) {n : ℕ}
    {r : List AVPacket × Internal} (h : P r.1 r.2) :
    P (writeLoop s writes flush n r).1 (writeLoop s writes flush n r).2 := by
  induction n generalizing r with
  | zero => exact h
  | succ n ih =>
    rw [writeLoop]
    split_ifs with hout
    · rcases hunlink : unlink r.2 with _ | ⟨pkt,rest⟩
      · exact h
      · have hnext := hstep r.1 r.2 pkt rest h hout hunlink
        cases hwrites : writes (r.1 ++ [pkt]) with
        | false => simpa only [hwrites,Bool.false_eq_true,if_false] using hnext
        | true => simpa only [hwrites,if_true] using ih (r := (r.1 ++ [pkt],rest)) hnext
    · exact h

/-! ### The pointers -/

def AVPacketList.isOf (i : ℕ) (node : AVPacketList) : Bool := node.pkt.stream_index = i

/-- The pointers point where they should. -/
structure Linked (q : Internal) : Prop where
  below : ∀ node ∈ q.packet_buffer, node.address < q.free
  nodup : (q.packet_buffer.map AVPacketList.address).Nodup
  last : ∀ i, q.last_in_packet_buffer i =
    (q.packet_buffer.filter (AVPacketList.isOf i)).getLast?.map AVPacketList.address

lemma linked_init : Linked .init := by
  constructor
  · intro node hnode
    exact absurd hnode List.not_mem_nil
  · exact List.nodup_nil
  · intro i
    rfl

/-- Behind the last node of a stream there is none of it. -/
lemma Linked.following_eq {q : Internal} (h : Linked q) (i : ℕ) : ∃ front,
    q.packet_buffer = front ++ following q.packet_buffer (q.last_in_packet_buffer i) ∧
      (∀ node ∈ following q.packet_buffer (q.last_in_packet_buffer i), node.pkt.stream_index ≠ i) ∧
      (front = [] ∨ ∃ init node, front = init ++ [node] ∧ node.pkt.stream_index = i) := by
  have hlast := h.last i
  rcases hfilter : (q.packet_buffer.filter (AVPacketList.isOf i)).getLast? with _ | node
  · rw [hfilter] at hlast
    rw [hlast,Option.map_none]
    refine ⟨[],rfl,?_,.inl rfl⟩
    intro node hmem heq
    rw [List.getLast?_eq_none_iff,List.filter_eq_nil_iff] at hfilter
    exact hfilter node hmem (decide_eq_true heq)
  · rw [hfilter] at hlast
    rw [hlast,Option.map_some]
    obtain ⟨nodes,hnodes⟩ := List.getLast?_eq_some_iff.mp hfilter
    obtain ⟨init,tail,hbuffer,-,htail⟩ := List.filter_eq_append_iff.mp hnodes
    obtain ⟨mid,rest,rfl,-,hnode,hrest⟩ := List.filter_eq_cons_iff.mp htail
    rw [← List.append_assoc] at hbuffer
    have hnodup := h.nodup
    have hdrop : (q.packet_buffer.dropWhile fun n => n.address ≠ node.address) = node :: rest := by
      rw [hbuffer,List.dropWhile_append_of_pos]
      · simp
      · intro other hother
        rw [hbuffer,List.map_append,List.map_cons,List.nodup_append] at hnodup
        have hne := hnodup.2.2 _ (List.mem_map_of_mem hother) _ List.mem_cons_self
        exact decide_eq_true hne
    refine ⟨(init ++ mid) ++ [node],?_,?_,.inr ⟨init ++ mid,node,rfl,of_decide_eq_true hnode⟩⟩
    · rw [following,hdrop,hbuffer]
      simp
    · rw [following,hdrop]
      intro other hother heq
      rw [List.filter_eq_nil_iff] at hrest
      exact hrest other hother (decide_eq_true heq)

lemma behind_suffix (compare : AVPacket → AVPacket → Bool) (buffer after : List AVPacketList)
    (pkt : AVPacket) : behind compare buffer after pkt <:+ after := by
  rw [behind]
  split_ifs
  · exact List.nil_suffix
  · exact List.dropWhile_suffix _
  · exact List.nil_suffix

/-- A packet is linked in somewhere behind all that its stream has in the list. -/
lemma Linked.add_eq {q : Internal} (h : Linked q) (compare : AVPacket → AVPacket → Bool)
    (pkt : AVPacket) : ∃ front rest, q.packet_buffer = front ++ rest ∧
      rest = behind compare q.packet_buffer
        (following q.packet_buffer (q.last_in_packet_buffer pkt.stream_index)) pkt ∧
      (interleaveAddPacket compare q pkt).packet_buffer = front ++ ⟨q.free,pkt⟩ :: rest ∧
      ∀ node ∈ rest, node.pkt.stream_index ≠ pkt.stream_index := by
  obtain ⟨first,hfirst,hnone,-⟩ := h.following_eq pkt.stream_index
  obtain ⟨skipped,hskipped⟩ := behind_suffix compare q.packet_buffer
    (following q.packet_buffer (q.last_in_packet_buffer pkt.stream_index)) pkt
  have hbuffer : q.packet_buffer = (first ++ skipped) ++ behind compare q.packet_buffer
      (following q.packet_buffer (q.last_in_packet_buffer pkt.stream_index)) pkt := by
    rw [List.append_assoc,hskipped]
    exact hfirst
  refine ⟨first ++ skipped,_,hbuffer,rfl,?_,?_⟩
  · simp only [interleaveAddPacket]
    congr 1
    generalize behind compare q.packet_buffer
      (following q.packet_buffer (q.last_in_packet_buffer pkt.stream_index)) pkt = rest at hbuffer ⊢
    rw [hbuffer,List.length_append,Nat.add_sub_cancel,List.take_left]
  · intro node hmem
    apply hnone node
    rw [← hskipped]
    exact List.mem_append_right _ hmem

lemma Linked.add {q : Internal} (h : Linked q) (compare : AVPacket → AVPacket → Bool)
    (pkt : AVPacket) : Linked (interleaveAddPacket compare q pkt) := by
  obtain ⟨front,rest,hbuffer,-,hadd,hrest⟩ := h.add_eq compare pkt
  have hbelow := h.below
  have hnodup := h.nodup
  have hfree : (interleaveAddPacket compare q pkt).free = q.free + 1 := rfl
  rw [hbuffer] at hbelow hnodup
  constructor
  · intro node hmem
    rw [hadd,List.mem_append,List.mem_cons] at hmem
    rw [hfree]
    rcases hmem with hfront | rfl | hback
    · exact (hbelow node (List.mem_append_left _ hfront)).trans (Nat.lt_succ_self _)
    · exact Nat.lt_succ_self _
    · exact (hbelow node (List.mem_append_right _ hback)).trans (Nat.lt_succ_self _)
  · rw [hadd]
    have hmiddle : (front ++ ⟨q.free,pkt⟩ :: rest).Perm (⟨q.free,pkt⟩ :: (front ++ rest)) :=
      List.perm_middle
    have hperm := hmiddle.map AVPacketList.address
    rw [hperm.nodup_iff,List.map_cons,List.nodup_cons]
    refine ⟨?_,hnodup⟩
    intro hmem
    obtain ⟨node,hnode,heq⟩ := List.mem_map.mp hmem
    exact absurd heq (hbelow node hnode).ne
  · intro i
    have hlast := h.last i
    rw [hbuffer,List.filter_append] at hlast
    rw [hadd,List.filter_append]
    simp only [interleaveAddPacket]
    by_cases hi : i = pkt.stream_index
    · subst hi
      have hempty : rest.filter (AVPacketList.isOf pkt.stream_index) = [] := by
        rw [List.filter_eq_nil_iff]
        intro node hmem hof
        exact hrest node hmem (of_decide_eq_true hof)
      have hof : AVPacketList.isOf pkt.stream_index ⟨q.free,pkt⟩ = true := decide_eq_true rfl
      rw [Function.update_self,List.filter_cons_of_pos hof,hempty,List.getLast?_concat]
      rfl
    · have hof : ¬AVPacketList.isOf i ⟨q.free,pkt⟩ = true := by
        intro hof
        exact hi (of_decide_eq_true hof).symm
      rw [Function.update_of_ne hi,List.filter_cons_of_neg hof]
      exact hlast

lemma Linked.unlink {q r : Internal} {pkt : AVPacket} (h : Linked q)
    (hunlink : unlink q = some (pkt,r)) :
    Linked r ∧ ∃ node, q.packet_buffer = node :: r.packet_buffer ∧ node.pkt = pkt := by
  have hbelow := h.below
  have hnodup := h.nodup
  have hlast := h.last
  rw [Avformat.unlink] at hunlink
  rcases hbuffer : q.packet_buffer with _ | ⟨node,rest⟩
  · rw [hbuffer] at hunlink
    exact absurd hunlink (by simp)
  rw [hbuffer] at hunlink hbelow hnodup hlast
  obtain ⟨rfl,rfl⟩ := Prod.mk.inj (Option.some.inj hunlink)
  refine ⟨⟨?_,?_,?_⟩,node,rfl,rfl⟩
  · intro other hmem
    exact hbelow other (List.mem_cons_of_mem _ hmem)
  · exact (List.nodup_cons.mp hnodup).2
  · intro i
    have hi := hlast i
    simp only
    by_cases hof : node.pkt.stream_index = i
    · subst hof
      have hpos : AVPacketList.isOf node.pkt.stream_index node = true := decide_eq_true rfl
      rw [List.filter_cons_of_pos hpos] at hi
      rcases hrest : rest.filter (AVPacketList.isOf node.pkt.stream_index) with _ | ⟨next,more⟩
      · rw [hrest] at hi
        rw [hi]
        simp
      · rw [hrest,List.getLast?_cons_cons] at hi
        have hmem : (next :: more).getLast (List.cons_ne_nil _ _) ∈ rest := by
          have hin : ∀ other ∈ next :: more, other ∈ rest := by
            intro other hother
            rw [← hrest] at hother
            exact (List.mem_filter.mp hother).1
          exact hin _ (List.getLast_mem _)
        have hne : ((next :: more).getLast (List.cons_ne_nil _ _)).address ≠ node.address := by
          intro heq
          apply (List.nodup_cons.mp hnodup).1
          rw [← heq]
          exact List.mem_map_of_mem hmem
        rw [List.getLast?_eq_some_getLast (List.cons_ne_nil _ _),Option.map_some] at hi
        have hkeep : q.last_in_packet_buffer node.pkt.stream_index ≠ some node.address := by
          rw [hi]
          intro heq
          exact hne (Option.some.inj heq)
        rw [if_neg hkeep,hi,List.getLast?_eq_some_getLast (List.cons_ne_nil _ _),Option.map_some]
    · have hneg : ¬AVPacketList.isOf i node = true := fun hpos => hof (of_decide_eq_true hpos)
      rw [List.filter_cons_of_neg hneg] at hi
      split_ifs
      · rw [Function.update_of_ne (Ne.symm hof),hi]
      · exact hi

/-! ### Nothing is lost -/

/-- The packets that wait. -/
def Internal.pending (q : Internal) : List AVPacket := q.packet_buffer.map AVPacketList.pkt

/-- Each stream's packets have been written or wait in the order in which they came. -/
def Accounted (given written : List AVPacket) (q : Internal) : Prop :=
  ∀ i, (written ++ q.pending).filter (fun pkt => pkt.stream_index = i) =
    given.filter fun pkt => pkt.stream_index = i

lemma Linked.add_accounted {q : Internal} (h : Linked q) {given written : List AVPacket}
    (hgiven : Accounted given written q) (compare : AVPacket → AVPacket → Bool) (pkt : AVPacket) :
    Accounted (given ++ [pkt]) written (interleaveAddPacket compare q pkt) := by
  intro i
  obtain ⟨front,rest,hbuffer,-,hadd,hrest⟩ := h.add_eq compare pkt
  have hi := hgiven i
  rw [Internal.pending,hbuffer,List.map_append,List.filter_append,List.filter_append] at hi
  rw [Internal.pending,hadd,List.map_append,List.map_cons,List.filter_append,List.filter_append,
    List.filter_append,← hi]
  by_cases hof : pkt.stream_index = i
  · subst hof
    have hempty : (rest.map AVPacketList.pkt).filter
        (fun other => other.stream_index = pkt.stream_index) = [] := by
      rw [List.filter_eq_nil_iff]
      intro other hmem heq
      obtain ⟨node,hnode,rfl⟩ := List.mem_map.mp hmem
      exact hrest node hnode (of_decide_eq_true heq)
    simp [hempty]
  · rw [List.filter_cons_of_neg (by simpa using hof)]
    simp [hof]

lemma Linked.unlink_accounted {q r : Internal} {pkt : AVPacket} (h : Linked q)
    (hunlink : Avformat.unlink q = some (pkt,r)) {given written : List AVPacket}
    (hgiven : Accounted given written q) : Accounted given (written ++ [pkt]) r := by
  obtain ⟨-,node,hbuffer,rfl⟩ := h.unlink hunlink
  intro i
  have hi := hgiven i
  rw [Internal.pending,hbuffer,List.map_cons] at hi
  rw [Internal.pending,List.append_assoc]
  exact hi

section writing
variable (s : AVFormatContext) (writes : List AVPacket → Bool)

lemma writeLoop_accounted {flush : Bool} {n : ℕ} {r : List AVPacket × Internal} (h : Linked r.2)
    {given : List AVPacket} (hgiven : Accounted given r.1 r.2) :
    Linked (writeLoop s writes flush n r).2 ∧
      Accounted given (writeLoop s writes flush n r).1 (writeLoop s writes flush n r).2 := by
  refine writeLoop_keeps s writes (P := fun written q => Linked q ∧ Accounted given written q) ?_
    ⟨h,hgiven⟩
  intro written q pkt rest hq _ hunlink
  exact ⟨(hq.1.unlink hunlink).1,hq.1.unlink_accounted hunlink hq.2⟩

lemma interleaveFrame_accounted {r : List AVPacket × Internal} (h : Linked r.2)
    {given : List AVPacket} (hgiven : Accounted given r.1 r.2) (call : Option AVPacket) :
    Linked (interleaveFrame s writes r call).2 ∧ Accounted (given ++ call.toList)
      (interleaveFrame s writes r call).1 (interleaveFrame s writes r call).2 := by
  cases call with
  | none =>
    rw [Option.toList_none,List.append_nil]
    exact writeLoop_accounted s writes h hgiven
  | some pkt =>
    exact writeLoop_accounted s writes (h.add _ pkt)
      (h.add_accounted hgiven (interleaveCompareDts s) pkt)

lemma interleaveFrames_concat (calls : List (Option AVPacket)) (call : Option AVPacket) :
    interleaveFrames s writes (calls ++ [call]) =
      interleaveFrame s writes (interleaveFrames s writes calls) call := by
  rw [interleaveFrames,List.foldl_append]
  rfl

lemma interleaveFrames_linked (calls : List (Option AVPacket)) :
    Linked (interleaveFrames s writes calls).2 ∧ Accounted (calls.flatMap Option.toList)
      (interleaveFrames s writes calls).1 (interleaveFrames s writes calls).2 := by
  induction calls using List.reverseRecOn with
  | nil => exact ⟨linked_init,fun _ => rfl⟩
  | append_singleton calls call ih =>
    rw [interleaveFrames_concat,List.flatMap_append,List.flatMap_singleton]
    exact interleaveFrame_accounted s writes ih.1 ih.2 call

end writing

/-! ### In the order of time -/

lemma perm_of_streams {xs ys : List AVPacket}
    (h : ∀ i, xs.filter (fun pkt => pkt.stream_index = i) = ys.filter fun pkt => pkt.stream_index = i) :
    xs.Perm ys := by
  rw [List.perm_iff_count]
  intro pkt
  have hcount (zs : List AVPacket) :
      zs.count pkt = (zs.filter fun other => other.stream_index = pkt.stream_index).count pkt :=
    (List.count_filter (by simp)).symm
  rw [hcount xs,hcount ys,h]

lemma Accounted.mem {given written : List AVPacket} {q : Internal} (h : Accounted given written q)
    {pkt : AVPacket} (hmem : pkt ∈ q.pending) : pkt ∈ given := by
  have hfilter : pkt ∈ (written ++ q.pending).filter
      fun other => other.stream_index = pkt.stream_index :=
    List.mem_filter.mpr ⟨List.mem_append_right _ hmem,by simp⟩
  rw [h] at hfilter
  exact (List.mem_filter.mp hfilter).1

/-- A stream that has a pointer has a packet in the list. -/
lemma Linked.isSome_iff {q : Internal} (h : Linked q) (i : ℕ) :
    (q.last_in_packet_buffer i).isSome = true ↔ ∃ pkt ∈ q.pending, pkt.stream_index = i := by
  rw [h.last,Option.isSome_map,List.getLast?_isSome,ne_eq,List.filter_eq_nil_iff]
  push Not
  constructor
  · rintro ⟨node,hmem,hof⟩
    exact ⟨node.pkt,List.mem_map_of_mem hmem,of_decide_eq_true hof⟩
  · rintro ⟨pkt,hmem,rfl⟩
    obtain ⟨node,hnode,rfl⟩ := List.mem_map.mp hmem
    exact ⟨node,hnode,decide_eq_true rfl⟩

section ordering
variable {κ : Type} [LinearOrder κ] (key : AVPacket → κ)

/-- What is written and what waits, in the order of their keys. -/
structure Ordered (written : List AVPacket) (q : Internal) : Prop where
  behind : written.Pairwise fun a b => key a ≤ key b
  ahead : q.pending.Pairwise fun a b => key a ≤ key b
  across : ∀ a ∈ written, ∀ b ∈ q.pending, key a ≤ key b

variable {key}

lemma le_of_sorted {init : List AVPacketList} {last : AVPacketList}
    (h : (init ++ [last]).Pairwise fun a b => key a.pkt ≤ key b.pkt) :
    ∀ node ∈ init ++ [last], key node.pkt ≤ key last.pkt := by
  intro node hmem
  rcases List.mem_append.mp hmem with hinit | hlast
  · exact (List.pairwise_append.mp h).2.2 node hinit last List.mem_cons_self
  · rw [List.mem_singleton.mp hlast]

/-- A packet goes between the packets before it and those after it. -/
lemma behind_between {compare : AVPacket → AVPacket → Bool} {pkt : AVPacket}
    {first after : List AVPacketList}
    (hsorted : (first ++ after).Pairwise fun a b => key a.pkt ≤ key b.pkt)
    (hcompare : ∀ node ∈ first ++ after, compare node.pkt pkt = true ↔ key pkt < key node.pkt)
    (hfirst : ∀ node ∈ first, key node.pkt ≤ key pkt) {front : List AVPacketList}
    (hfront : first ++ after = front ++ behind compare (first ++ after) after pkt) :
    (∀ node ∈ front, key node.pkt ≤ key pkt) ∧
      ∀ node ∈ behind compare (first ++ after) after pkt, key pkt ≤ key node.pkt := by
  rw [behind] at hfront ⊢
  split_ifs at hfront ⊢ with hempty hlast
  · rw [hempty,List.append_nil,List.append_nil] at hfront
    rw [← hfront]
    exact ⟨hfirst,fun node hmem => absurd hmem List.not_mem_nil⟩
  · -- the walk stops at the first packet that is later
    generalize hwalk : (fun node : AVPacketList => !compare node.pkt pkt) = walk at hfront ⊢
    have hsplit : first ++ after = (first ++ after.takeWhile walk) ++ after.dropWhile walk := by
      rw [List.append_assoc,List.takeWhile_append_dropWhile]
    rw [hsplit] at hfront
    have hpassed := List.append_cancel_right hfront
    constructor
    · intro node hmem
      rw [← hpassed] at hmem
      rcases List.mem_append.mp hmem with hbefore | hwalked
      · exact hfirst node hbefore
      · have hnot := List.mem_takeWhile_imp hwalked
        have hafter := (List.takeWhile_prefix walk).subset hwalked
        rw [← hwalk,Bool.not_eq_true',← Bool.not_eq_true,
          hcompare node (List.mem_append_right _ hafter)] at hnot
        exact not_lt.mp hnot
    · rcases hrest : after.dropWhile walk with _ | ⟨node,rest⟩
      · exact fun node hmem => absurd hmem List.not_mem_nil
      have hstop : walk node = false := by
        have hhead := List.head?_dropWhile_not walk after
        rw [hrest] at hhead
        simpa using hhead
      have hsuffix : after.dropWhile walk ⊆ after := (List.dropWhile_suffix walk).subset
      rw [hrest] at hsuffix
      have hlater : key pkt < key node.pkt := by
        rw [← hcompare node (List.mem_append_right _ (hsuffix List.mem_cons_self))]
        rw [← hwalk] at hstop
        simpa using hstop
      rw [hsplit,hrest] at hsorted
      have hnodes := (List.pairwise_append.mp hsorted).2.1
      intro other hmem
      rcases List.mem_cons.mp hmem with rfl | hother
      · exact hlater.le
      · exact hlater.le.trans (List.rel_of_pairwise_cons hnodes hother)
  · -- nothing is later than the packet at the end
    rw [List.append_nil] at hfront
    refine ⟨?_,fun node hmem => absurd hmem List.not_mem_nil⟩
    rcases List.eq_nil_or_concat (first ++ after) with hnil | ⟨init,last,hconcat⟩
    · exact absurd (List.append_eq_nil_iff.mp hnil).2 hempty
    rw [List.concat_eq_append] at hconcat
    rw [hconcat,List.getLast?_concat,Option.any_some,
      hcompare last (by rw [hconcat]; exact List.mem_append_right _ List.mem_cons_self)] at hlast
    rw [hconcat] at hsorted
    intro node hmem
    rw [← hfront,hconcat] at hmem
    exact (le_of_sorted hsorted node hmem).trans (not_lt.mp hlast)

lemma Ordered.add {q : Internal} (h : Linked q) {written : List AVPacket}
    (hordered : Ordered key written q) {compare : AVPacket → AVPacket → Bool} {pkt : AVPacket}
    (hcompare : ∀ next ∈ q.pending, compare next pkt = true ↔ key pkt < key next)
    (hstream : ∀ other ∈ q.pending, other.stream_index = pkt.stream_index → key other ≤ key pkt)
    (hwritten : ∀ other ∈ written, key other ≤ key pkt) :
    Ordered key written (interleaveAddPacket compare q pkt) := by
  obtain ⟨first,hbuffer,-,hend⟩ := h.following_eq pkt.stream_index
  obtain ⟨front,rest,hsplit,hrest,hadd,-⟩ := h.add_eq compare pkt
  have hsorted := hordered.ahead
  have hacross := hordered.across
  simp only [Internal.pending,List.pairwise_map] at hsorted
  have hnodes : ∀ node ∈ q.packet_buffer, node.pkt ∈ q.pending := fun node hmem =>
    List.mem_map_of_mem hmem
  have hfirst : ∀ node ∈ first, key node.pkt ≤ key pkt := by
    rcases hend with rfl | ⟨init,last,rfl,hof⟩
    · exact fun node hmem => absurd hmem List.not_mem_nil
    · have hlast := hstream last.pkt (hnodes last (by
        rw [hbuffer]
        exact List.mem_append_left _ (List.mem_append_right _ List.mem_cons_self))) hof
      have hinit := hsorted
      rw [hbuffer] at hinit
      intro node hmem
      exact (le_of_sorted (List.pairwise_append.mp hinit).1 node hmem).trans hlast
  have hbetween : (∀ node ∈ front, key node.pkt ≤ key pkt) ∧ ∀ node ∈ rest, key pkt ≤ key node.pkt := by
    generalize following q.packet_buffer (q.last_in_packet_buffer pkt.stream_index) = after at hbuffer hrest
    rw [hrest] at hsplit ⊢
    rw [hbuffer] at hsplit hsorted hnodes ⊢
    exact behind_between hsorted (fun node hmem => hcompare _ (hnodes node hmem)) hfirst hsplit
  rw [hsplit] at hsorted
  have hparts := List.pairwise_append.mp hsorted
  constructor
  · exact hordered.behind
  · simp only [Internal.pending,hadd,List.pairwise_map,List.pairwise_append,List.pairwise_cons]
    refine ⟨hparts.1,⟨hbetween.2,hparts.2.1⟩,?_⟩
    intro a ha b hb
    rcases List.mem_cons.mp hb with rfl | hback
    · exact hbetween.1 a ha
    · exact hparts.2.2 a ha b hback
  · intro a ha b hb
    rw [Internal.pending,hadd,List.map_append,List.map_cons,List.mem_append,List.mem_cons] at hb
    rw [Internal.pending,hsplit,List.map_append] at hacross
    rcases hb with hfront | rfl | hback
    · exact hacross a ha b (List.mem_append_left _ hfront)
    · exact hwritten a ha
    · exact hacross a ha b (List.mem_append_right _ hback)

lemma Ordered.unlink {q r : Internal} {pkt : AVPacket} (h : Linked q)
    (hunlink : Avformat.unlink q = some (pkt,r)) {written : List AVPacket}
    (hordered : Ordered key written q) : Ordered key (written ++ [pkt]) r := by
  obtain ⟨-,node,hbuffer,rfl⟩ := h.unlink hunlink
  have hpending : q.pending = node.pkt :: r.pending := by
    rw [Internal.pending,hbuffer,List.map_cons]
    rfl
  obtain ⟨hwritten,hsorted,hacross⟩ := hordered
  rw [hpending] at hsorted hacross
  have hnode := List.pairwise_cons.mp hsorted
  constructor
  · rw [List.pairwise_append]
    refine ⟨hwritten,List.pairwise_singleton _ _,?_⟩
    intro a ha b hb
    rw [List.mem_singleton.mp hb]
    exact hacross a ha _ List.mem_cons_self
  · exact hnode.2
  · intro a ha b hb
    rcases List.mem_append.mp ha with hbefore | hlast
    · exact hacross a hbefore b (List.mem_cons_of_mem _ hb)
    · rw [List.mem_singleton.mp hlast]
      exact hnode.1 b hb

lemma writeLoop_ordered (s : AVFormatContext) (writes : List AVPacket → Bool) {flush : Bool} {n : ℕ}
    {r : List AVPacket × Internal} (h : Linked r.2) (hordered : Ordered key r.1 r.2) :
    Ordered key (writeLoop s writes flush n r).1 (writeLoop s writes flush n r).2 := by
  refine (writeLoop_keeps s writes (P := fun written q => Linked q ∧ Ordered key written q) ?_
    ⟨h,hordered⟩).2
  intro written q pkt rest hq _ hunlink
  exact ⟨(hq.1.unlink hunlink).1,hq.2.unlink hq.1 hunlink⟩

/-- Each stream has come as far as what is written. -/
def Reached (s : AVFormatContext) (key : AVPacket → κ) (given written : List AVPacket) : Prop :=
  ∀ a ∈ written, ∀ i < s.nb_streams, (s.streams i).isAttachment = false →
    ∃ b ∈ given, b.stream_index = i ∧ key a ≤ key b

omit [LinearOrder κ] in
lemma mem_of_countP {l : List ℕ} {p q : ℕ → Bool} (himp : ∀ i ∈ l, p i = true → q i = true)
    (hcount : l.countP q = l.countP p) {i : ℕ} (hmem : i ∈ l) (hq : q i = true) : p i = true := by
  have hfilter : l.filter p = (l.filter q).filter p := by
    rw [List.filter_filter]
    apply List.filter_congr
    intro j hj
    cases hp : p j with
    | false => rfl
    | true => rw [himp j hj hp,Bool.and_self]
  have hsame : (l.filter q).filter p = l.filter q := by
    apply List.Sublist.eq_of_length List.filter_sublist
    rw [← hfilter,← List.countP_eq_length_filter,← List.countP_eq_length_filter,hcount]
  have hin := List.mem_filter.mpr ⟨hmem,hq⟩
  rw [← hsame] at hin
  exact (List.mem_filter.mp hin).2

/-- Without a limit on the delay a packet comes out only when every stream has one. -/
lemma Linked.all_waiting {s : AVFormatContext} (hdelta : s.max_interleave_delta ≤ 0) {q : Internal}
    (h : Linked q) (hstreams : Interleaved s q.pending) (hout : outputs s q false = true) {i : ℕ}
    (hi : i < s.nb_streams) (hattachment : (s.streams i).isAttachment = false) :
    ∃ pkt ∈ q.pending, pkt.stream_index = i := by
  have hcount : nbInterleavedStreams s = streamCount s q := by
    simp only [outputs,Bool.false_or,Bool.and_eq_true,Bool.or_eq_true,decide_eq_true_eq] at hout
    rcases hout.2 with heq | hforced
    · exact heq
    · have hnot : ¬0 < s.max_interleave_delta := by omega
      cases hbuffer : q.packet_buffer <;> simp [hbuffer,hnot] at hforced
  rw [← h.isSome_iff]
  apply mem_of_countP _ hcount (List.mem_range.mpr hi)
  · simp [hattachment]
  · intro j _ hsome
    obtain ⟨pkt,hmem,rfl⟩ := (h.isSome_iff j).mp hsome
    simp [(hstreams pkt hmem).2]

lemma writeLoop_reached {s : AVFormatContext} (hdelta : s.max_interleave_delta ≤ 0)
    (writes : List AVPacket → Bool) {given : List AVPacket} (hstreams : Interleaved s given) {n : ℕ}
    {r : List AVPacket × Internal} (h : Linked r.2) (hgiven : Accounted given r.1 r.2)
    (hordered : Ordered key r.1 r.2) (hreached : Reached s key given r.1) :
    Reached s key given (writeLoop s writes false n r).1 := by
  refine (writeLoop_keeps s writes (P := fun written q => Linked q ∧ Accounted given written q ∧
    Ordered key written q ∧ Reached s key given written) ?_ ⟨h,hgiven,hordered,hreached⟩).2.2.2
  rintro written q pkt rest ⟨hlinked,haccounted,hordered,hreached⟩ hout hunlink
  refine ⟨(hlinked.unlink hunlink).1,hlinked.unlink_accounted hunlink haccounted,
    hordered.unlink hlinked hunlink,?_⟩
  intro a ha i hi hattachment
  rcases List.mem_append.mp ha with hbefore | hlast
  · exact hreached a hbefore i hi hattachment
  rw [List.mem_singleton.mp hlast]
  obtain ⟨b,hb,hof⟩ := hlinked.all_waiting hdelta (fun c hc => hstreams c (haccounted.mem hc)) hout
    hi hattachment
  refine ⟨b,haccounted.mem hb,hof,?_⟩
  obtain ⟨-,node,hbuffer,rfl⟩ := hlinked.unlink hunlink
  have hsorted := hordered.ahead
  rw [Internal.pending,hbuffer,List.map_cons] at hsorted hb
  rcases List.mem_cons.mp hb with rfl | hrest
  · exact le_rfl
  · exact List.rel_of_pairwise_cons hsorted hrest

/-- What each packet that is given keeps, when each stream's packets come in order. -/
lemma interleaveFrames_ordered {s : AVFormatContext} (hdelta : s.max_interleave_delta ≤ 0)
    (writes : List AVPacket → Bool) {given : List AVPacket} (hstreams : Interleaved s given)
    (hkey : ∀ a ∈ given, ∀ b ∈ given, interleaveCompareDts s a b = true ↔ key b < key a)
    (hmono : given.Pairwise fun a b => a.stream_index = b.stream_index → key a ≤ key b) :
    Ordered key (interleaveFrames s writes (given.map some)).1 (interleaveFrames s writes (given.map some)).2 ∧
      Reached s key given (interleaveFrames s writes (given.map some)).1 := by
  induction given using List.reverseRecOn with
  | nil =>
    refine ⟨⟨List.Pairwise.nil,List.Pairwise.nil,?_⟩,?_⟩ <;>
      exact fun a ha => absurd ha List.not_mem_nil
  | append_singleton given pkt ih =>
    have hin : ∀ a ∈ given, a ∈ given ++ [pkt] := fun a ha => List.mem_append_left _ ha
    have hpkt : pkt ∈ given ++ [pkt] := List.mem_append_right _ List.mem_cons_self
    have hparts := List.pairwise_append.mp hmono
    obtain ⟨hordered,hreached⟩ := ih (fun a ha => hstreams a (hin a ha))
      (fun a ha b hb => hkey a (hin a ha) b (hin b hb)) hparts.1
    have hkept := interleaveFrames_linked s writes (given.map some)
    rw [toList_map_some] at hkept
    rw [List.map_append,List.map_singleton,interleaveFrames_concat]
    generalize interleaveFrames s writes (given.map some) = r at hordered hreached hkept ⊢
    obtain ⟨hlinked,haccounted⟩ := hkept
    have hlast : ∀ a ∈ given, a.stream_index = pkt.stream_index → key a ≤ key pkt := fun a ha =>
      hparts.2.2 a ha pkt List.mem_cons_self
    have hadded := Ordered.add hlinked hordered
      (fun next hnext => hkey next (hin next (haccounted.mem hnext)) pkt hpkt)
      (fun other hother => hlast other (haccounted.mem hother)) (by
        intro other hother
        obtain ⟨b,hb,hof,hle⟩ := hreached other hother pkt.stream_index (hstreams pkt hpkt).1
          (hstreams pkt hpkt).2
        exact hle.trans (hlast b hb hof))
    have hwider : Reached s key (given ++ [pkt]) r.1 := by
      intro a ha i hi hattachment
      obtain ⟨b,hb,hof⟩ := hreached a ha i hi hattachment
      exact ⟨b,hin b hb,hof⟩
    exact ⟨writeLoop_ordered s writes (hlinked.add _ pkt) hadded,
      writeLoop_reached hdelta writes hstreams (hlinked.add _ pkt)
        (hlinked.add_accounted haccounted _ pkt) hadded hwider⟩

end ordering

/-- A flush whose writes succeed writes all that waits. -/
lemma writeLoop_flush (s : AVFormatContext) {n : ℕ} {r : List AVPacket × Internal} (h : Linked r.2)
    (hstreams : Interleaved s r.2.pending) (hn : r.2.packet_buffer.length ≤ n) :
    (writeLoop s (fun _ => true) true n r).2.pending = [] := by
  induction n generalizing r with
  | zero =>
    rw [writeLoop,Internal.pending,List.eq_nil_of_length_eq_zero (Nat.le_zero.mp hn),List.map_nil]
  | succ n ih =>
    rw [writeLoop]
    rcases hunlink : unlink r.2 with _ | ⟨pkt,q⟩
    · have hempty : r.2.pending = [] := by
        rcases hbuffer : r.2.packet_buffer with _ | ⟨node,rest⟩
        · rw [Internal.pending,hbuffer,List.map_nil]
        · rw [unlink,hbuffer] at hunlink
          exact absurd hunlink (by simp)
      split_ifs <;> exact hempty
    · obtain ⟨hq,node,hbuffer,rfl⟩ := h.unlink hunlink
      have hmem : node.pkt ∈ r.2.pending := by
        rw [Internal.pending,hbuffer,List.map_cons]
        exact List.mem_cons_self
      have hout : outputs s r.2 true = true := by
        have hcount : 0 < streamCount s r.2 := by
          rw [streamCount,List.countP_pos_iff]
          exact ⟨_,List.mem_range.mpr (hstreams _ hmem).1,(h.isSome_iff _).mpr ⟨_,hmem,rfl⟩⟩
        simp [outputs,hcount.ne']
      have hrest : Interleaved s q.pending := by
        intro pkt hpkt
        apply hstreams
        rw [Internal.pending,hbuffer,List.map_cons]
        exact List.mem_cons_of_mem _ hpkt
      have hlength : q.packet_buffer.length ≤ n := by
        rw [hbuffer,List.length_cons] at hn
        omega
      rw [if_pos hout]
      simpa only [if_true] using ih (r := (r.1 ++ [node.pkt],q)) hq hrest hlength

/-- When a packet is to be decoded. -/
def instant (s : AVFormatContext) (pkt : AVPacket) : ℚ :=
  pkt.dts * (s.streams pkt.stream_index).time_base.value

/-- The instants in order, and the streams at one instant. -/
def position (s : AVFormatContext) (pkt : AVPacket) : ℚ ×ₗ ℕ := toLex (instant s pkt,pkt.stream_index)

lemma interleaveCompareDts_iff (s : AVFormatContext) {next pkt : AVPacket}
    (hnext : |next.dts| ≤ int64Max) (hpkt : |pkt.dts| ≤ int64Max)
    (hrange : instant s next / (s.streams pkt.stream_index).time_base.value < 2 ^ 63) :
    interleaveCompareDts s next pkt = true ↔ position s pkt < position s next := by
  have hcompare : avCompareTs next.dts (s.streams next.stream_index).time_base.toAVRational pkt.dts
      (s.streams pkt.stream_index).time_base.toAVRational =
        compared (instant s next) (instant s pkt) := avCompareTs_of_lt hnext hpkt _ _ hrange
  simp only [interleaveCompareDts,hcompare,position,Prod.Lex.toLex_lt_toLex]
  rcases lt_trichotomy (instant s next) (instant s pkt) with hlt | heq | hgt
  · simp [compared,hlt,hlt.not_gt,hlt.ne']
  · simp [compared,heq]
  · simp [compared,hgt,hgt.not_gt]

/-- Packets whose streams come in order are all written, in that of `position`. -/
lemma interleaveFrames_sorted {s : AVFormatContext} (hdelta : s.max_interleave_delta ≤ 0)
    {given : List AVPacket} (hstreams : Interleaved s given)
    (hdts : ∀ pkt ∈ given, |pkt.dts| ≤ int64Max)
    (hrange : ∀ a ∈ given, ∀ b ∈ given,
      instant s a / (s.streams b.stream_index).time_base.value < 2 ^ 63)
    (hmono : given.Pairwise fun a b => a.stream_index = b.stream_index → a.dts ≤ b.dts) :
    let written := (interleaveFrames s (fun _ => true) (given.map some ++ [none])).1
    (written.Pairwise fun a b => position s a ≤ position s b) ∧ written.Perm given ∧
      ∀ i, written.filter (fun pkt => pkt.stream_index = i) =
        given.filter fun pkt => pkt.stream_index = i := by
  intro written
  have hkey : ∀ a ∈ given, ∀ b ∈ given,
      interleaveCompareDts s a b = true ↔ position s b < position s a := fun a ha b hb =>
    interleaveCompareDts_iff s (hdts a ha) (hdts b hb) (hrange a ha b hb)
  have hposition : given.Pairwise fun a b =>
      a.stream_index = b.stream_index → position s a ≤ position s b := by
    refine hmono.imp ?_
    intro a b hle hof
    have hinstant : instant s a ≤ instant s b := by
      rw [instant,instant,hof]
      exact mul_le_mul_of_nonneg_right (by exact_mod_cast hle hof) (TimeBase.value_pos _).le
    rw [position,position,hof,Prod.Lex.toLex_le_toLex]
    exact hinstant.lt_or_eq.imp_right fun heq => ⟨heq,le_rfl⟩
  obtain ⟨hordered,-⟩ := interleaveFrames_ordered hdelta (fun _ => true) hstreams hkey hposition
  obtain ⟨hlinked,haccounted⟩ := interleaveFrames_linked s (fun _ => true) (given.map some)
  rw [toList_map_some] at haccounted
  have hwritten : written =
      (interleaveFrame s (fun _ => true) (interleaveFrames s (fun _ => true) (given.map some)) none).1 := by
    rw [← interleaveFrames_concat]
  rw [hwritten]
  generalize interleaveFrames s (fun _ => true) (given.map some) = r at hordered hlinked haccounted ⊢
  have hsorted : Ordered (position s) (interleaveFrame s (fun _ => true) r none).1
      (interleaveFrame s (fun _ => true) r none).2 := writeLoop_ordered s (fun _ => true) hlinked hordered
  have hrest : (interleaveFrame s (fun _ => true) r none).2.pending = [] :=
    writeLoop_flush s hlinked (fun pkt hpkt => hstreams pkt (haccounted.mem hpkt)) le_rfl
  have hall : Accounted given (interleaveFrame s (fun _ => true) r none).1
      (interleaveFrame s (fun _ => true) r none).2 :=
    (writeLoop_accounted s (fun _ => true) hlinked haccounted).2
  have hfilter : ∀ i, (interleaveFrame s (fun _ => true) r none).1.filter
      (fun pkt => pkt.stream_index = i) = given.filter fun pkt => pkt.stream_index = i := by
    intro i
    have hi := hall i
    rw [hrest,List.append_nil] at hi
    exact hi
  exact ⟨hsorted.behind,perm_of_streams hfilter,hfilter⟩

end ZenMedia.Avformat
