import ZenMedia.Construction
import ZenMedia.HandlerDeliveries

/-! Sessions of the event handler: the stretches between `MediaPlayerStopped`
events. What the handlers of the two generations tell the client in a session is
decided by the order of its events alone. -/
namespace ZenMedia
open Reentrant TraceLaws

def Event.endsSession (e : Event) : Bool := e = .mediaPlayerStopped

/-- The messages of the current session. -/
def sessionOf (ms : List Message) : List Message := session (fun m => m.event.endsSession) ms

def Saw (e : Event) (ms : List Message) : Prop := ∃ m ∈ sessionOf ms, m.event = e

lemma saw_nil (e : Event) : ¬Saw e [] := by simp [Saw,sessionOf]

lemma saw_concat (e : Event) (ms : List Message) (m : Message) :
    Saw e (ms ++ [m]) ↔ m.event ≠ .mediaPlayerStopped ∧ (Saw e ms ∨ m.event = e) := by
  by_cases h : m.event = .mediaPlayerStopped <;>
    simp [Saw,sessionOf,Event.endsSession,h,or_and_right,exists_or]

def Callback.isOnPlay : Callback → Bool
  | onPlay _ => true
  | _ => false

namespace Obs

def endsSession (o : Obs) : Bool := o = .entered (.handleMessage .mediaPlayerStopped)

def isOnPlay : Obs → Bool
  | callback c => c.isOnPlay
  | _ => false

@[simp] lemma endsSession_callback (c : Callback) : (callback c).endsSession = false := rfl
@[simp] lemma isOnPlay_entered (op : Op) : (entered op).isOnPlay = false := rfl
@[simp] lemma isOnPlay_callback (c : Callback) : (callback c).isOnPlay = c.isOnPlay := rfl

end Obs

/-- `onPlay` has been delivered since the last `MediaPlayerStopped`. -/
def Played (record : List Obs) : Prop := ∃ o ∈ session Obs.endsSession record, o.isOnPlay

/-- The session after a message and its callbacks. -/
lemma session_message (record : List Obs) (e : Event) (cs : List Callback) :
    session Obs.endsSession (record ++ .entered (.handleMessage e) :: cs.map .callback) =
      if e = .mediaPlayerStopped then cs.map .callback
      else session Obs.endsSession record ++ .entered (.handleMessage e) :: cs.map .callback := by
  have hcs : ∀ o ∈ cs.map Obs.callback, o.endsSession = false := by
    intro o ho
    obtain ⟨c,-,rfl⟩ := List.mem_map.mp ho
    rfl
  rw [List.append_cons,session_append _ hcs,session_concat]
  by_cases h : e = .mediaPlayerStopped <;> simp [Obs.endsSession,h]

lemma played_message (record : List Obs) (e : Event) (cs : List Callback) :
    Played (record ++ .entered (.handleMessage e) :: cs.map .callback) ↔
      (e ≠ .mediaPlayerStopped ∧ Played record) ∨ ∃ c ∈ cs, c.isOnPlay := by
  unfold Played
  rw [session_message]
  by_cases h : e = .mediaPlayerStopped
  · simp [h]
  · simp [h,or_and_right,exists_or]

/-- A player just constructed for a client, not stopped and not yet told anything. -/
structure Fresh (w : World) : Prop where
  listening : Listening w
  quiet : w.player.eventHandler.isOnPlayCallback = false
  running : w.player.stopped = false
  untold : w.record = []

lemma Born.fresh {w : World} (h : Born true w) : Fresh w where
  listening := ⟨h.callBack,by rw [h.eventHandler]⟩
  quiet := by rw [h.eventHandler]
  running := h.stopped
  untold := h.untold

lemma built_fresh (c : ViewClass) : Fresh c.built := (built_constructed c).born.fresh

def World.handle (g : Generation) (w : World) (ms : List Message) : World :=
  w.run g recording (ms.map Message.step)

lemma handle_nil (g : Generation) (w : World) : w.handle g [] = w := rfl

lemma handle_concat (g : Generation) (w : World) (ms : List Message) (m : Message) :
    w.handle g (ms ++ [m]) = (w.handle g ms).step g recording m.step := by
  simp [World.handle,World.run]

/-- What the flag and the record say about the messages handled. -/
structure Tracks (g : Generation) (flag : Bool) (record : List Obs) (ms : List Message) : Prop where
  flag_iff : flag = true ↔ Saw .mediaPlayerPositionChanged ms
  progressed : flag = true → Played record
  played : ¬Saw .mediaPlayerPositionChanged ms →
    (Played record ↔ g = .zMediaPlayer ∧ Saw .mediaPlayerEndReached ms)

lemma tracks_nil (g : Generation) : Tracks g false [] [] where
  flag_iff := by simp [saw_nil]
  progressed := by simp
  played := by simp [Played,saw_nil]

lemma Tracks.off {g : Generation} {flag : Bool} {record : List Obs} {ms : List Message}
    (h : Tracks g flag record ms) (hsaw : ¬Saw .mediaPlayerPositionChanged ms) : flag = false := by
  have hflag := h.flag_iff
  simpa using fun ht => hsaw (hflag.mp ht)

lemma Tracks.step {g : Generation} {flag : Bool} {record : List Obs} {ms : List Message}
    (h : Tracks g flag record ms) (released : Bool) (m : Message) :
    Tracks g (flagAfter flag m.event)
      (record ++ .entered (.handleMessage m.event) :: (g.deliveries flag released m).map .callback)
      (ms ++ [m]) := by
  have hf := h.flag_iff
  refine ⟨?_,?_,?_⟩
  · rw [saw_concat]
    cases he : m.event <;> simp [flagAfter,hf]
  · rw [played_message]
    intro hon
    have hpr := h.progressed
    cases he : m.event with
    | mediaPlayerStopped => simp [flagAfter,he] at hon
    | mediaPlayerPositionChanged =>
      cases flag with
      | true => exact .inl ⟨by simp,hpr rfl⟩
      | false => exact .inr ⟨.onPlay m.length,by simp [Generation.deliveries,he],rfl⟩
    | _ => exact .inl ⟨by simp,hpr (by simpa [flagAfter,he] using hon)⟩
  · intro hno
    rw [saw_concat] at hno
    rw [played_message,saw_concat]
    by_cases hst : m.event = .mediaPlayerStopped
    · cases released <;> simp [Generation.deliveries,hst,Callback.isOnPlay]
    · have hsaw : ¬Saw .mediaPlayerPositionChanged ms := fun hs => hno ⟨hst,.inl hs⟩
      have hpc : m.event ≠ .mediaPlayerPositionChanged := fun he => hno ⟨hst,.inr he⟩
      have hoff := h.off hsaw
      have hpl := h.played hsaw
      cases he : m.event with
      | mediaPlayerEndReached =>
        cases g <;> simp [Generation.deliveries,he,hoff,hpl,Callback.isOnPlay]
      | mediaPlayerPositionChanged => exact absurd he hpc
      | mediaPlayerStopped => exact absurd he hst
      | _ => simp [Generation.deliveries,he,hpl,Callback.isOnPlay]

/-- A fresh player `w` after the messages `ms`. -/
structure Handled (g : Generation) (w v : World) (ms : List Message) : Prop where
  listening : Listening v
  isReleased : v.player.mediaPlayer.isReleased = w.player.mediaPlayer.isReleased
  tracks : Tracks g v.player.eventHandler.isOnPlayCallback v.record ms

theorem handled (g : Generation) {w : World} (hw : Fresh w) (ms : List Message) :
    Handled g w (w.handle g ms) ms := by
  induction ms using List.reverseRecOn with
  | nil => exact ⟨hw.listening,rfl,by rw [handle_nil,hw.quiet,hw.untold]; exact tracks_nil g⟩
  | append_singleton ms m ih =>
    obtain ⟨hl,hflag,hrel,-,hrec⟩ := step_listening g m ih.listening
    rw [handle_concat]
    refine ⟨hl,hrel.trans ih.isReleased,?_⟩
    rw [hflag,hrec]
    exact ih.tracks.step _ m

/-! ### onPlay once per session -/

lemma deliveries_isOnPlay (g : Generation) (flag released : Bool) (m : Message) :
    (∃ c ∈ g.deliveries flag released m, c.isOnPlay) ↔ flag = false ∧
      (m.event = .mediaPlayerPositionChanged ∨
        g = .zMediaPlayer ∧ m.event = .mediaPlayerEndReached) := by
  unfold Generation.deliveries
  cases he : m.event with
  | mediaPlayerStopped => cases released <;> simp [Callback.isOnPlay]
  | mediaPlayerEndReached => cases g <;> cases flag <;> simp [Callback.isOnPlay]
  | mediaPlayerPositionChanged => cases flag <;> simp [Callback.isOnPlay]
  | _ => simp [Callback.isOnPlay]

/-- `onPlay` only ever comes first. -/
lemma deliveries_tail (g : Generation) (flag released : Bool) (m : Message) :
    ∀ c ∈ (g.deliveries flag released m).tail, c.isOnPlay = false := by
  unfold Generation.deliveries
  cases he : m.event with
  | mediaPlayerStopped => cases released <;> simp
  | mediaPlayerEndReached => cases g <;> cases flag <;> simp [Callback.isOnPlay]
  | mediaPlayerPositionChanged => cases flag <;> simp [Callback.isOnPlay]
  | _ => simp

def PlayedOnce (record : List Obs) : Prop := Guarded (fun o => o.isOnPlay) (fun pre => ¬Played pre) record

lemma playedOnce_iff (record : List Obs) :
    OncePerSession Obs.endsSession (fun o => o.isOnPlay) record ↔ PlayedOnce record := by
  have hcut : ∀ o : Obs, o.isOnPlay = true → o.endsSession = false := by
    intro o ho
    cases o with
    | callback c => rfl
    | _ => simp [Obs.isOnPlay] at ho
  rw [oncePerSession_iff _ _ hcut]
  simp [PlayedOnce,Played]

lemma playedOnce_message (record : List Obs) (e : Event) {cs : List Callback}
    (htail : ∀ c ∈ cs.tail, c.isOnPlay = false) (hst : e = .mediaPlayerStopped → ∀ c ∈ cs, c.isOnPlay = false) :
    PlayedOnce (record ++ .entered (.handleMessage e) :: cs.map .callback) ↔
      PlayedOnce record ∧ ((∃ c ∈ cs, c.isOnPlay) → ¬Played record) := by
  have hentered : PlayedOnce (record ++ [.entered (.handleMessage e)]) ↔ PlayedOnce record := by
    simp [PlayedOnce,guarded_concat]
  have hplayed := played_message record e []
  cases cs with
  | nil => simpa using hentered
  | cons c cs =>
    have hrest : ∀ o ∈ cs.map Obs.callback, ¬o.isOnPlay = true := by
      intro o ho
      obtain ⟨c',hc',rfl⟩ := List.mem_map.mp ho
      simpa using htail c' hc'
    have hsplit : record ++ .entered (.handleMessage e) :: (c :: cs).map .callback =
        (record ++ [.entered (.handleMessage e)] ++ [.callback c]) ++ cs.map .callback := by simp
    have hfirst : (∃ d ∈ c :: cs, d.isOnPlay) ↔ c.isOnPlay := by
      simp only [List.mem_cons,exists_eq_or_imp,or_iff_left_iff_imp]
      rintro ⟨d,hd,hon⟩
      exact absurd hon (by simpa using htail d hd)
    rw [hsplit,PlayedOnce,guarded_append,guarded_concat,hfirst]
    have hrest' : Guarded (fun o : Obs => o.isOnPlay = true)
      (fun pre => ¬Played (record ++ [.entered (.handleMessage e)] ++ [.callback c] ++ pre))
      (cs.map .callback) := guarded_of_none hrest
    rw [and_iff_left hrest']
    refine and_congr hentered (imp_congr_right fun hon => not_congr ?_)
    rw [List.map_nil] at hplayed
    have hne : e ≠ .mediaPlayerStopped := fun he => by simp [hst he c] at hon
    simp [hplayed,hne]

/-- A repeated session: of the events that may deliver `onPlay`, none comes after
an `EndReached` of its session without a `PositionChanged` of the session before it. -/
def EndAfterProgress (ms : List Message) : Prop :=
  Guarded (fun m => m.event = .mediaPlayerEndReached ∨ m.event = .mediaPlayerPositionChanged)
    (fun pre => Saw .mediaPlayerEndReached pre → Saw .mediaPlayerPositionChanged pre) ms

theorem onPlay_once_iff (g : Generation) (w : World) (hw : Fresh w) (ms : List Message) :
    OncePerSession Obs.endsSession (fun o => o.isOnPlay) (w.handle g ms).record ↔
      g = .zMediaPlayer2 ∨ EndAfterProgress ms := by
  rw [playedOnce_iff]
  induction ms using List.reverseRecOn with
  | nil => simp [EndAfterProgress,PlayedOnce,handle_nil,hw.untold]
  | append_singleton ms m ih =>
    have hh := handled g hw ms
    have hflag := hh.tracks.flag_iff
    obtain ⟨-,-,-,-,hrec⟩ := step_listening g m hh.listening
    have hst : m.event = .mediaPlayerStopped →
        ∀ c ∈ g.deliveries (w.handle g ms).player.eventHandler.isOnPlayCallback
          (w.handle g ms).player.mediaPlayer.isReleased m, c.isOnPlay = false := by
      intro he c hc
      by_contra hon
      have := (deliveries_isOnPlay g _ _ m).mp ⟨c,hc,eq_true_of_ne_false hon⟩
      simp [he] at this
    rw [handle_concat,hrec,playedOnce_message _ _ (deliveries_tail g _ _ m) hst,
      deliveries_isOnPlay,ih,EndAfterProgress,EndAfterProgress,guarded_concat]
    by_cases hsaw : Saw .mediaPlayerPositionChanged ms
    · simp [hflag.mpr hsaw,hsaw]
    · have hoff := hh.tracks.off hsaw
      have hpl := hh.tracks.played hsaw
      cases g with
      | zMediaPlayer =>
        simp only [hoff,hpl,hsaw]
        grind
      | zMediaPlayer2 => simp [hoff,hpl]

/-- An `EndReached` and a late `PositionChanged`: two calls of `onPlay`. -/
theorem onPlay_twice :
    ¬OncePerSession Obs.endsSession (fun o => o.isOnPlay)
      (ViewClass.audioPlayer.built.handle .zMediaPlayer
        [⟨.mediaPlayerEndReached,0,0,false⟩,⟨.mediaPlayerPositionChanged,0,0,false⟩]).record := by
  intro h
  have hlen := h [] (ViewClass.audioPlayer.built.handle .zMediaPlayer
    [⟨.mediaPlayerEndReached,0,0,false⟩,⟨.mediaPlayerPositionChanged,0,0,false⟩]).record []
    (by simp) (by decide)
  revert hlen
  decide

theorem onPlay_once_built :
    OncePerSession Obs.endsSession (fun o => o.isOnPlay)
      (ViewClass.audioPlayer.built.handle .zMediaPlayer
        [⟨.mediaPlayerPositionChanged,7,1/2,false⟩,⟨.mediaPlayerEndReached,7,1,false⟩]).record := by
  refine (onPlay_once_iff _ _ (built_fresh _) _).mpr (.inr ?_)
  simp [EndAfterProgress,Saw,sessionOf,session,Event.endsSession,List.rtakeWhile]

end ZenMedia
