import ZenMedia.FractionArithmetic
import ZenMedia.TimestampDrift

/-! What the muxer does with a packet before it is interleaved: the fields that it fills in, and
the packets that it refuses. -/
namespace ZenMedia.Avformat
open Avutil

inductive AVMediaType
  | unknown
  | video
  | audio
  | data
  | subtitle
  | attachment
  deriving DecidableEq, Repr

/-- A codec, with what `av_get_audio_frame_duration` makes of the sizes of its packets. -/
structure AVCodecContext where
  codec_type : AVMediaType
  isVp8OrVp9 : Bool
  has_b_frames : ℤ
  max_b_frames : ℤ
  time_base : AVRational
  ticks_per_frame : ℤ
  sample_rate : ℤ
  audioFrameDuration : ℕ → ℤ

structure AVStream where
  time_base : TimeBase
  codec : AVCodecContext

def AVStream.isAttachment (st : AVStream) : Bool := st.codec.codec_type = .attachment

structure AVPacket where
  stream_index : ℕ
  dts : ℤ
  pts : ℤ
  duration : ℤ
  data : List UInt8
  deriving DecidableEq, Repr

/-- What does not change while packets are written. -/
structure AVFormatContext where
  nb_streams : ℕ
  streams : ℕ → AVStream
  max_interleave_delta : ℤ
  tsNonstrict : Bool
  noTimestamps : Bool

/-- What `int` arithmetic leaves of an integer. -/
def int (x : ℤ) : ℤ := x.bmod (2 ^ 32)

/-! ### Fractions -/

structure FFFrac where
  val : ℤ
  num : ℤ
  den : ℤ
  deriving DecidableEq, Repr

def fracInit (val num den : ℤ) : FFFrac :=
  let num := int64 (num + den >>> (1 : ℕ))
  if den ≤ num then ⟨int64 (val + num.tdiv den),num.tmod den,den⟩ else ⟨val,num,den⟩

def fracAdd (f : FFFrac) (incr : ℤ) : FFFrac :=
  let num := int64 (f.num + incr)
  if num < 0 then
    let val := int64 (f.val + num.tdiv f.den)
    let num := num.tmod f.den
    if num < 0 then ⟨int64 (val - 1),num + f.den,f.den⟩ else ⟨val,num,f.den⟩
  else if f.den ≤ num then ⟨int64 (f.val + num.tdiv f.den),num.tmod f.den,f.den⟩
  else ⟨f.val,num,f.den⟩

/-! ### The fields -/

/-- What a stream remembers of the packets before. -/
structure StreamTiming where
  cur_dts : ℤ
  priv_pts : FFFrac
  pts_buffer : ℕ → ℤ

def initPts (st : AVStream) : FFFrac :=
  match st.codec.codec_type with
  | .audio => fracInit 0 0 (int64 (st.time_base.num * st.codec.sample_rate))
  | .video => fracInit 0 0 (int64 (st.time_base.num * st.codec.time_base.den))
  | _ => ⟨0,0,0⟩

/-- When the header has been written. -/
def StreamTiming.init (st : AVStream) : StreamTiming := ⟨0,initPts st,fun _ => avNoptsValue⟩

/-- The duration of a frame as a fraction, with a denominator of 0 where there is none. -/
def ffComputeFrameDuration (st : AVStream) (size : ℕ) : AVRational :=
  let codec_framerate := avMulQ ⟨st.codec.time_base.den,st.codec.time_base.num⟩
    ⟨1,st.codec.ticks_per_frame⟩
  match st.codec.codec_type with
  | .video =>
    if st.time_base.den < st.time_base.num * 1000 then ⟨st.time_base.num,st.time_base.den⟩
    else if codec_framerate.num < codec_framerate.den * 1000 ∧ st.codec.ticks_per_frame ≤ 1 then
      (avReduce codec_framerate.den (codec_framerate.num * st.codec.ticks_per_frame) reduceMax).1
    else ⟨0,0⟩
  | .audio =>
    let frame_size := st.codec.audioFrameDuration size
    if frame_size ≤ 0 ∨ st.codec.sample_rate ≤ 0 then ⟨0,0⟩ else ⟨frame_size,st.codec.sample_rate⟩
  | _ => ⟨0,0⟩

/-- The duration that a packet leaves with. -/
def frameDuration (st : AVStream) (pkt : AVPacket) : ℤ :=
  let duration := if pkt.duration < 0 ∧ st.codec.codec_type ≠ .subtitle then 0 else pkt.duration
  if duration ≠ 0 then duration
  else
    let frame := ffComputeFrameDuration st pkt.data.length
    if frame.den ≠ 0 ∧ frame.num ≠ 0 then
      int (avRescaleRnd 1 (int64 (frame.num * st.time_base.den * st.codec.ticks_per_frame))
        (int64 (frame.den * st.time_base.num)) (avRound .nearInf))
    else 0

def maxReorderDelay : ℤ := 16

/-- The loop that makes up time stamps for the last `n` entries, until one is there already. -/
def fillPts (pts duration : ℤ) (delay : ℕ) : ℕ → (ℕ → ℤ) → ℕ → ℤ
  | 0, pts_buffer => pts_buffer
  | n + 1, pts_buffer =>
    let i := delay - n
    if pts_buffer i = avNoptsValue then
      fillPts pts duration delay n (Function.update pts_buffer i
        (int64 (pts + int ((i - delay - 1) * duration))))
    else pts_buffer

/-- The loop that sinks the new time stamp behind the earlier ones, with `n` of them left. -/
def sinkPts (delay : ℕ) : ℕ → (ℕ → ℤ) → ℕ → ℤ
  | 0, pts_buffer => pts_buffer
  | n + 1, pts_buffer =>
    let i := delay - (n + 1)
    if pts_buffer (i + 1) < pts_buffer i then
      sinkPts delay n (Function.update (Function.update pts_buffer i (pts_buffer (i + 1))) (i + 1)
        (pts_buffer i))
    else pts_buffer

/-- A time stamp that stands for both, and the one that is made up where there is none. -/
def fillStamps (delay val : ℤ) (pkt : AVPacket) : AVPacket :=
  let pkt :=
    if pkt.pts = avNoptsValue ∧ pkt.dts ≠ avNoptsValue ∧ delay = 0 then { pkt with pts := pkt.dts }
    else pkt
  if (pkt.pts = 0 ∨ pkt.pts = avNoptsValue) ∧ pkt.dts = avNoptsValue ∧ delay = 0 then
    { pkt with dts := val, pts := val }
  else pkt

/-- The part of `compute_pkt_fields2` that fills in the packet's fields. -/
def fillFields (st : AVStream) (timing : StreamTiming) (pkt : AVPacket) : AVPacket × StreamTiming :=
  let delay := max st.codec.has_b_frames (if 0 < st.codec.max_b_frames then 1 else 0)
  let pkt := fillStamps delay timing.priv_pts.val { pkt with duration := frameDuration st pkt }
  if pkt.pts ≠ avNoptsValue ∧ pkt.dts = avNoptsValue ∧ delay ≤ maxReorderDelay then
    let delay := delay.toNat
    let pts_buffer := Function.update timing.pts_buffer 0 pkt.pts
    let pts_buffer := sinkPts delay delay (fillPts pkt.pts pkt.duration delay delay pts_buffer)
    ({ pkt with dts := pts_buffer 0 },{ timing with pts_buffer := pts_buffer })
  else (pkt,timing)

/-- Whether the time stamps of a packet are no reason to refuse it. -/
def allowsTimestamps (s : AVFormatContext) (st : AVStream) (cur_dts : ℤ) (pkt : AVPacket) : Bool :=
  !(cur_dts ≠ 0 && cur_dts ≠ avNoptsValue &&
      (!s.tsNonstrict && st.codec.codec_type ≠ .subtitle && pkt.dts ≤ cur_dts ||
        pkt.dts < cur_dts)) &&
    !(pkt.dts ≠ avNoptsValue && pkt.pts ≠ avNoptsValue && pkt.pts < pkt.dts)

/-- What the stream remembers of a packet that is taken. -/
def advance (st : AVStream) (timing : StreamTiming) (pkt : AVPacket) : StreamTiming :=
  let priv_pts : FFFrac := { timing.priv_pts with val := pkt.dts }
  { timing with
    cur_dts := pkt.dts
    priv_pts :=
      match st.codec.codec_type with
      | .audio =>
        let frame_size := st.codec.audioFrameDuration pkt.data.length
        -- empty packets at the start are most likely the delay of the encoder
        let half := priv_pts.den >>> (1 : ℕ)
        if 0 ≤ frame_size ∧ (pkt.data ≠ [] ∨ priv_pts.num ≠ half ∨ priv_pts.val ≠ 0) then
          fracAdd priv_pts (int64 (st.time_base.den * frame_size))
        else priv_pts
      | .video => fracAdd priv_pts (int64 (st.time_base.den * st.codec.time_base.num))
      | _ => priv_pts }

/-- Whether the packet is taken, the packet, and what its stream remembers. -/
def computePktFields2 (s : AVFormatContext) (st : AVStream) (timing : StreamTiming)
    (pkt : AVPacket) : Bool × AVPacket × StreamTiming :=
  let filled := fillFields st timing pkt
  if allowsTimestamps s st filled.2.cur_dts filled.1 then (true,filled.1,advance st filled.2 filled.1)
  else (false,filled)

def checkPacket (s : AVFormatContext) (pkt : AVPacket) : Bool :=
  pkt.stream_index < s.nb_streams && !(s.streams pkt.stream_index).isAttachment

/-- A packet up to the loop of `av_interleaved_write_frame`, unless it is refused, and what the
streams remember. -/
def acceptPacket (s : AVFormatContext) (timings : ℕ → StreamTiming) (pkt : AVPacket) :
    Option AVPacket × (ℕ → StreamTiming) :=
  if checkPacket s pkt then
    let i := pkt.stream_index
    match computePktFields2 s (s.streams i) (timings i) pkt with
    | (taken,pkt,timing) =>
      (if s.noTimestamps || taken && pkt.dts ≠ avNoptsValue then some pkt else none,
        Function.update timings i timing)
  else (none,timings)

/-- The calls that get as far as the loop, with the packets that they have by then. -/
def acceptCalls (s : AVFormatContext) :
    (ℕ → StreamTiming) → List (Option AVPacket) → List (Option AVPacket)
  | _, [] => []
  | timings, none :: calls => none :: acceptCalls s timings calls
  | timings, some pkt :: calls =>
    match acceptPacket s timings pkt with
    | (none,timings) => acceptCalls s timings calls
    | (some pkt,timings) => some pkt :: acceptCalls s timings calls

/-- The packets that are not refused when a muxer that has written its header gets `calls`. -/
def accepted (s : AVFormatContext) (calls : List (Option AVPacket)) : List AVPacket :=
  (acceptCalls s (fun i => .init (s.streams i)) calls).flatMap Option.toList

/-- A muxer of one video stream refuses a time stamp that lies behind the last one. -/
example :
    let frame : TimeBase := ⟨⟨1,25⟩,by decide,by decide,by decide,by decide⟩
    let s : AVFormatContext :=
      ⟨1,fun _ => ⟨frame,⟨.video,false,0,0,⟨1,25⟩,1,0,fun _ => 0⟩⟩,0,false,false⟩
    accepted s [some ⟨0,10,10,1,[]⟩,some ⟨0,5,5,1,[]⟩,some ⟨0,12,12,1,[]⟩] =
      [⟨0,10,10,1,[]⟩,⟨0,12,12,1,[]⟩] := by decide

/-! ### What is taken -/

lemma fillFields_keeps (st : AVStream) (timing : StreamTiming) (pkt : AVPacket) :
    (fillFields st timing pkt).1.stream_index = pkt.stream_index ∧
      (fillFields st timing pkt).1.data = pkt.data ∧
      (fillFields st timing pkt).2.cur_dts = timing.cur_dts := by
  simp only [fillFields,fillStamps]
  split_ifs <;> exact ⟨rfl,rfl,rfl⟩

/-- Unless it is at 0 or undefined, the last time stamp is not beyond `dts`. -/
def StreamTiming.Reaches (timing : StreamTiming) (dts : ℤ) : Prop :=
  timing.cur_dts ≠ 0 → timing.cur_dts ≠ avNoptsValue → timing.cur_dts ≤ dts

lemma allowsTimestamps_reaches {s : AVFormatContext} {st : AVStream} {timing : StreamTiming}
    {pkt : AVPacket} (h : allowsTimestamps s st timing.cur_dts pkt = true) :
    timing.Reaches pkt.dts := by
  intro hzero hnopts
  simp only [allowsTimestamps,Bool.and_eq_true,Bool.not_eq_true',Bool.and_eq_false_iff,
    Bool.or_eq_false_iff,decide_eq_false_iff_not] at h
  rcases h.1 with (hnot | hnot) | ⟨-,hle⟩
  · exact absurd hzero hnot
  · exact absurd hnopts hnot
  · exact not_lt.mp hle

variable {s : AVFormatContext} {timings timings' : ℕ → StreamTiming} {pkt : AVPacket}

lemma acceptPacket_refused (h : checkPacket s pkt = false) :
    acceptPacket s timings pkt = (none,timings) := by
  rw [acceptPacket,if_neg (by rw [h]; exact Bool.false_ne_true)]

lemma acceptPacket_eq (h : checkPacket s pkt = true) :
    let st := s.streams pkt.stream_index
    let filled := fillFields st (timings pkt.stream_index) pkt
    acceptPacket s timings pkt =
      if allowsTimestamps s st filled.2.cur_dts filled.1 then
        (if s.noTimestamps || filled.1.dts ≠ avNoptsValue then some filled.1 else none,
          Function.update timings pkt.stream_index (advance st filled.2 filled.1))
      else (if s.noTimestamps then some filled.1 else none,
        Function.update timings pkt.stream_index filled.2) := by
  intro st filled
  simp only [acceptPacket,h,if_true,computePktFields2]
  split_ifs <;> simp_all [st,filled]

/-- A packet that is taken comes from a stream that is interleaved and stays what it is. -/
lemma acceptPacket_some {p : AVPacket} (h : acceptPacket s timings pkt = (some p,timings')) :
    checkPacket s pkt = true ∧ p.stream_index = pkt.stream_index ∧ p.data = pkt.data := by
  cases hcheck : checkPacket s pkt with
  | false =>
    rw [acceptPacket_refused hcheck] at h
    exact absurd (Prod.mk.inj h).1 (Option.some_ne_none _).symm
  | true =>
    have hkeeps := fillFields_keeps (s.streams pkt.stream_index) (timings pkt.stream_index) pkt
    rw [acceptPacket_eq hcheck] at h
    split_ifs at h <;> obtain ⟨hsome,-⟩ := Prod.mk.inj h <;> cases hsome <;>
      exact ⟨rfl,hkeeps.1,hkeeps.2.1⟩

/-- Where time stamps matter, it has one that is not before the last one of its stream. -/
lemma acceptPacket_stamped {p : AVPacket} (hstamps : s.noTimestamps = false)
    (h : acceptPacket s timings pkt = (some p,timings')) :
    p.dts ≠ avNoptsValue ∧ (timings p.stream_index).Reaches p.dts ∧
      (timings' p.stream_index).cur_dts = p.dts ∧
      ∀ i ≠ p.stream_index, timings' i = timings i := by
  obtain ⟨hcheck,hindex,-⟩ := acceptPacket_some h
  have hkeeps := (fillFields_keeps (s.streams pkt.stream_index) (timings pkt.stream_index) pkt).2.2
  rw [acceptPacket_eq hcheck,hstamps,Bool.false_or,if_neg Bool.false_ne_true] at h
  split_ifs at h with hallows hdts
  · obtain ⟨hsome,rfl⟩ := Prod.mk.inj h
    rw [hindex,Function.update_self]
    cases hsome
    have hreaches := allowsTimestamps_reaches hallows
    rw [StreamTiming.Reaches,hkeeps] at hreaches
    refine ⟨of_decide_eq_true hdts,hreaches,rfl,?_⟩
    intro i hi
    rw [Function.update_of_ne hi]
  · exact absurd (Prod.mk.inj h).1 (Option.some_ne_none _).symm
  · exact absurd (Prod.mk.inj h).1 (Option.some_ne_none _).symm

/-- A packet that is refused does not raise what its stream has reached. -/
lemma acceptPacket_none (h : acceptPacket s timings pkt = (none,timings')) (i : ℕ) {dts : ℤ}
    (hdts : avNoptsValue ≤ dts) (hreaches : (timings' i).Reaches dts) : (timings i).Reaches dts := by
  cases hcheck : checkPacket s pkt with
  | false =>
    rw [acceptPacket_refused hcheck] at h
    rw [(Prod.mk.inj h).2]
    exact hreaches
  | true =>
    have hkeeps := (fillFields_keeps (s.streams pkt.stream_index) (timings pkt.stream_index) pkt).2.2
    rw [acceptPacket_eq hcheck] at h
    by_cases hi : i = pkt.stream_index
    · subst hi
      split_ifs at h with hallows hstamp
      · exact absurd (Prod.mk.inj h).1 (Option.some_ne_none _)
      · -- the packet has no time stamp, and the last one was none either
        have hundefined := allowsTimestamps_reaches hallows
        simp only [Bool.or_eq_true,decide_eq_true_eq,not_or,not_not] at hstamp
        rw [hstamp.2,StreamTiming.Reaches,hkeeps] at hundefined
        intro hzero hnopts
        exact (hundefined hzero hnopts).trans hdts
      · exact absurd (Prod.mk.inj h).1 (Option.some_ne_none _)
      · obtain ⟨-,rfl⟩ := Prod.mk.inj h
        rw [StreamTiming.Reaches,Function.update_self,hkeeps] at hreaches
        exact hreaches
    · have hsame : timings' i = timings i := by
        split_ifs at h <;> rw [← (Prod.mk.inj h).2,Function.update_of_ne hi]
      rw [← hsame]
      exact hreaches

/-! ### Runs of calls -/

variable {calls : List (Option AVPacket)}

/-- Packets come from streams that are interleaved. -/
def Interleaved (s : AVFormatContext) (given : List AVPacket) : Prop :=
  ∀ pkt ∈ given, pkt.stream_index < s.nb_streams ∧
    (s.streams pkt.stream_index).isAttachment = false

/-- What is true of every packet that is taken is true of all that a run takes. -/
lemma forall_acceptCalls {P : AVPacket → Prop} (h : ∀ timings given pkt timings',
    acceptPacket s timings given = (some pkt,timings') → P pkt) :
    ∀ pkt ∈ (acceptCalls s timings calls).flatMap Option.toList, P pkt := by
  fun_induction acceptCalls s timings calls with
  | case1 => exact fun pkt hmem => absurd hmem List.not_mem_nil
  | case2 timings calls ih => exact ih
  | case3 timings given calls timings' hrefused ih => exact ih
  | case4 timings given calls pkt timings' htaken ih =>
    intro other hmem
    rcases List.mem_cons.mp hmem with rfl | hrest
    · exact h timings given other timings' htaken
    · exact ih other hrest

lemma acceptCalls_interleaved :
    Interleaved s ((acceptCalls s timings calls).flatMap Option.toList) := by
  apply forall_acceptCalls
  intro timings given pkt timings' htaken
  obtain ⟨hcheck,hindex,-⟩ := acceptPacket_some htaken
  simpa [checkPacket,hindex] using hcheck

lemma acceptCalls_stamped (hstamps : s.noTimestamps = false) :
    ∀ pkt ∈ (acceptCalls s timings calls).flatMap Option.toList, pkt.dts ≠ avNoptsValue :=
  forall_acceptCalls fun _ _ _ _ htaken => (acceptPacket_stamped hstamps htaken).1

/-- What is taken of the packets given, in their order. -/
lemma acceptCalls_sublist :
    (((acceptCalls s timings calls).flatMap Option.toList).map
        fun pkt => (pkt.stream_index,pkt.data)).Sublist
      ((calls.flatMap Option.toList).map fun pkt => (pkt.stream_index,pkt.data)) := by
  fun_induction acceptCalls s timings calls with
  | case1 => exact List.Sublist.refl _
  | case2 timings calls ih => exact ih
  | case3 timings given calls timings' hrefused ih => exact ih.cons _
  | case4 timings given calls pkt timings' htaken ih =>
    obtain ⟨-,hindex,hdata⟩ := acceptPacket_some htaken
    have hsame : (pkt.stream_index,pkt.data) = (given.stream_index,given.data) := by
      rw [hindex,hdata]
    simp only [List.flatMap_cons,Option.toList_some,List.singleton_append,List.map_cons,hsame]
    exact ih.cons_cons _

lemma toList_map_some (given : List AVPacket) : (given.map some).flatMap Option.toList = given := by
  rw [List.flatMap_map]
  exact List.flatMap_singleton' given

lemma acceptCalls_flush :
    acceptCalls s timings (calls ++ [none]) = acceptCalls s timings calls ++ [none] := by
  fun_induction acceptCalls s timings calls with
  | case1 => rfl
  | case2 timings calls ih => rw [List.cons_append,acceptCalls,ih,List.cons_append]
  | case3 timings given calls timings' hrefused ih =>
    rw [List.cons_append,acceptCalls,hrefused,← ih]
  | case4 timings given calls pkt timings' htaken ih =>
    rw [List.cons_append,acceptCalls,htaken,List.cons_append,← ih]

lemma acceptCalls_map_some (timings : ℕ → StreamTiming) (given : List AVPacket) :
    acceptCalls s timings (given.map some) =
      ((acceptCalls s timings (given.map some)).flatMap Option.toList).map some := by
  induction given generalizing timings with
  | nil => rfl
  | cons pkt given ih =>
    rw [List.map_cons,acceptCalls]
    rcases acceptPacket s timings pkt with ⟨_ | taken,timings'⟩
    · exact ih timings'
    · exact congrArg _ (ih timings')

/-- No packet with a negative time stamp comes behind one of its stream with a time stamp of 0. -/
def NeverBelowZero (given : List AVPacket) : Prop :=
  given.Pairwise fun a b => a.stream_index = b.stream_index → a.dts = 0 → 0 ≤ b.dts

/-- The packets that are taken of a stream have time stamps that do not decrease. -/
lemma acceptCalls_monotone (hstamps : s.noTimestamps = false)
    (hmin : ∀ pkt ∈ (acceptCalls s timings calls).flatMap Option.toList, avNoptsValue ≤ pkt.dts)
    (hzero : NeverBelowZero ((acceptCalls s timings calls).flatMap Option.toList)) :
    ((acceptCalls s timings calls).flatMap Option.toList).Pairwise
        (fun a b => a.stream_index = b.stream_index → a.dts ≤ b.dts) ∧
      ∀ b ∈ (acceptCalls s timings calls).flatMap Option.toList,
        (timings b.stream_index).Reaches b.dts := by
  fun_induction acceptCalls s timings calls with
  | case1 => exact ⟨List.Pairwise.nil,fun pkt hmem => absurd hmem List.not_mem_nil⟩
  | case2 timings calls ih => exact ih hmin hzero
  | case3 timings given calls timings' hrefused ih =>
    obtain ⟨hmono,hreaches⟩ := ih hmin hzero
    refine ⟨hmono,?_⟩
    intro b hb
    exact acceptPacket_none hrefused b.stream_index (hmin b hb) (hreaches b hb)
  | case4 timings given calls pkt timings' htaken ih =>
    obtain ⟨hnopts,hpkt,hcur,hother⟩ := acceptPacket_stamped hstamps htaken
    obtain ⟨hbehind,hzero⟩ := List.pairwise_cons.mp hzero
    obtain ⟨hmono,hreaches⟩ := ih (fun b hb => hmin b (List.mem_cons_of_mem _ hb)) hzero
    have hnext : ∀ b ∈ (acceptCalls s timings' calls).flatMap Option.toList,
        pkt.stream_index = b.stream_index → pkt.dts ≤ b.dts := by
      intro b hb hof
      by_cases hdts : pkt.dts = 0
      · rw [hdts]
        exact hbehind b hb hof hdts
      · have hb' := hreaches b hb
        rw [StreamTiming.Reaches,← hof,hcur] at hb'
        exact hb' hdts hnopts
    refine ⟨List.pairwise_cons.mpr ⟨hnext,hmono⟩,?_⟩
    intro b hb
    rcases List.mem_cons.mp hb with rfl | hrest
    · exact hpkt
    · by_cases hof : b.stream_index = pkt.stream_index
      · intro hcur0 hcurnopts
        rw [hof] at hcur0 hcurnopts ⊢
        exact (hpkt hcur0 hcurnopts).trans (hnext b hrest hof.symm)
      · rw [← hother _ hof]
        exact hreaches b hrest

/-! ### Time stamps of 64 bits -/

def IsInt64 (x : ℤ) : Prop := int64Min ≤ x ∧ x ≤ int64Max

lemma isInt64_int64 (x : ℤ) : IsInt64 (int64 x) := by
  have hlow := Int.le_bmod (x := x) (m := 2 ^ 64) (by decide)
  have hhigh := Int.bmod_lt (x := x) (m := 2 ^ 64) (by decide)
  rw [IsInt64,int64,int64Min,int64Max]
  omega

lemma isInt64_nopts : IsInt64 avNoptsValue := ⟨by decide,by decide⟩

lemma isInt64_zero : IsInt64 0 := ⟨by decide,by decide⟩

structure AVPacket.Fits (pkt : AVPacket) : Prop where
  dts : IsInt64 pkt.dts
  pts : IsInt64 pkt.pts

structure StreamTiming.Fits (timing : StreamTiming) : Prop where
  val : IsInt64 timing.priv_pts.val
  pts_buffer : ∀ i, IsInt64 (timing.pts_buffer i)

lemma fracInit_fits {val : ℤ} (h : IsInt64 val) (num den : ℤ) : IsInt64 (fracInit val num den).val := by
  simp only [fracInit]
  split_ifs
  · exact isInt64_int64 _
  · exact h

lemma fracAdd_fits {f : FFFrac} (h : IsInt64 f.val) (incr : ℤ) : IsInt64 (fracAdd f incr).val := by
  simp only [fracAdd]
  split_ifs
  · exact isInt64_int64 _
  · exact isInt64_int64 _
  · exact isInt64_int64 _
  · exact h

lemma forall_update {α : Type} {P : α → Prop} {f : ℕ → α} (h : ∀ i, P (f i)) (i : ℕ) {x : α}
    (hx : P x) : ∀ j, P (Function.update f i x j) :=
  (Function.forall_update_iff f fun _ => P).mpr ⟨hx,fun j _ => h j⟩

lemma fillPts_fits (pts duration : ℤ) (delay n : ℕ) {pts_buffer : ℕ → ℤ}
    (h : ∀ i, IsInt64 (pts_buffer i)) : ∀ i, IsInt64 (fillPts pts duration delay n pts_buffer i) := by
  induction n generalizing pts_buffer with
  | zero => exact h
  | succ n ih =>
    simp only [fillPts]
    split_ifs
    · exact ih (forall_update h _ (isInt64_int64 _))
    · exact h

lemma sinkPts_fits (delay n : ℕ) {pts_buffer : ℕ → ℤ} (h : ∀ i, IsInt64 (pts_buffer i)) :
    ∀ i, IsInt64 (sinkPts delay n pts_buffer i) := by
  induction n generalizing pts_buffer with
  | zero => exact h
  | succ n ih =>
    simp only [sinkPts]
    split_ifs
    · exact ih (forall_update (forall_update h _ (h _)) _ (h _))
    · exact h

lemma StreamTiming.init_fits (st : AVStream) : (StreamTiming.init st).Fits := by
  constructor
  · simp only [init,initPts]
    split
    · exact fracInit_fits isInt64_zero _ _
    · exact fracInit_fits isInt64_zero _ _
    · exact isInt64_zero
  · exact fun i => isInt64_nopts

lemma fillStamps_fits (delay : ℤ) {val : ℤ} (hval : IsInt64 val) {pkt : AVPacket} (hpkt : pkt.Fits) :
    (fillStamps delay val pkt).Fits := by
  simp only [fillStamps]
  split_ifs
  · exact ⟨hval,hval⟩
  · exact ⟨hpkt.dts,hpkt.dts⟩
  · exact ⟨hval,hval⟩
  · exact hpkt

lemma fillFields_fits (st : AVStream) {timing : StreamTiming} (htiming : timing.Fits)
    {pkt : AVPacket} (hpkt : pkt.Fits) :
    (fillFields st timing pkt).1.Fits ∧ (fillFields st timing pkt).2.Fits := by
  simp only [fillFields]
  generalize max st.codec.has_b_frames _ = delay
  have hfilled := fillStamps_fits delay htiming.val
    (⟨hpkt.dts,hpkt.pts⟩ : AVPacket.Fits { pkt with duration := frameDuration st pkt })
  generalize fillStamps delay _ _ = filled at hfilled ⊢
  split_ifs
  · have hbuffer := sinkPts_fits delay.toNat delay.toNat (fillPts_fits filled.pts filled.duration
      delay.toNat delay.toNat (forall_update htiming.pts_buffer 0 hfilled.pts))
    exact ⟨⟨hbuffer 0,hfilled.pts⟩,htiming.val,hbuffer⟩
  · exact ⟨hfilled,htiming⟩

lemma advance_fits (st : AVStream) {timing : StreamTiming} (htiming : timing.Fits) {pkt : AVPacket}
    (hpkt : pkt.Fits) : (advance st timing pkt).Fits := by
  constructor
  · simp only [advance]
    split
    · split_ifs
      · exact fracAdd_fits hpkt.dts _
      · exact hpkt.dts
    · exact fracAdd_fits hpkt.dts _
    · exact hpkt.dts
  · exact htiming.pts_buffer

lemma acceptPacket_fits (htimings : ∀ i, (timings i).Fits) (hpkt : pkt.Fits) :
    (∀ p ∈ (acceptPacket s timings pkt).1, p.Fits) ∧ ∀ i, ((acceptPacket s timings pkt).2 i).Fits := by
  cases hcheck : checkPacket s pkt with
  | false =>
    rw [acceptPacket_refused hcheck]
    exact ⟨fun p hp => absurd hp (Option.not_mem_none p),htimings⟩
  | true =>
    obtain ⟨hfilled,htiming⟩ :=
      fillFields_fits (s.streams pkt.stream_index) (htimings pkt.stream_index) hpkt
    have hsome (c : Bool) : ∀ p ∈ (if c then some (fillFields (s.streams pkt.stream_index)
        (timings pkt.stream_index) pkt).1 else none), p.Fits := by
      intro p hp
      split_ifs at hp
      · rw [← Option.mem_some.mp hp]
        exact hfilled
      · exact absurd hp (Option.not_mem_none p)
    rw [acceptPacket_eq hcheck]
    split
    · exact ⟨hsome _,forall_update htimings _ (advance_fits _ htiming hfilled)⟩
    · exact ⟨hsome _,forall_update htimings _ htiming⟩

lemma acceptCalls_fits (htimings : ∀ i, (timings i).Fits)
    (hcalls : ∀ pkt ∈ calls.flatMap Option.toList, pkt.Fits) :
    ∀ pkt ∈ (acceptCalls s timings calls).flatMap Option.toList, pkt.Fits := by
  fun_induction acceptCalls s timings calls with
  | case1 => exact fun pkt hmem => absurd hmem List.not_mem_nil
  | case2 timings calls ih => exact ih htimings hcalls
  | case3 timings given calls timings' hrefused ih =>
    have hgiven := acceptPacket_fits (s := s) htimings (hcalls given List.mem_cons_self)
    rw [hrefused] at hgiven
    exact ih hgiven.2 fun pkt hpkt => hcalls pkt (List.mem_cons_of_mem _ hpkt)
  | case4 timings given calls pkt timings' htaken ih =>
    have hgiven := acceptPacket_fits (s := s) htimings (hcalls given List.mem_cons_self)
    rw [htaken] at hgiven
    intro other hmem
    rcases List.mem_cons.mp hmem with rfl | hrest
    · exact hgiven.1 other rfl
    · exact ih hgiven.2 (fun pkt hpkt => hcalls pkt (List.mem_cons_of_mem _ hpkt)) other hrest

end ZenMedia.Avformat
