import ZenMedia.Teardown
import ZenMedia.HandlerSessions

/-! Clients that may stop or release the player from inside a callback, deciding
by what they have been told so far. -/
namespace ZenMedia
open Reentrant TraceLaws

inductive Reaction
  | proceed
  | stop
  | release
  deriving DecidableEq, Repr

/-- What a client does in a callback, from the callbacks received so far, the
running one included. -/
abbrev Client := List Callback → Reaction

def Reaction.act : Reaction → World → World
  | proceed, w => w
  | stop, w => final (ZMediaPlayer.stop.run w)
  | release, w => final (ZMediaPlayer.release.run w)

def Client.react (client : Client) : Callback → World → World :=
  fun _ w => (client w.callbacks).act w

/-- `v` is `w` after a completed teardown. -/
structure Gone (w v : World) : Prop where
  tornDown : TornDown w.player v.player
  env : v.env = w.env
  log : v.log = w.log ++ w.player.tearDownCalls

namespace Gone
variable {w v : World}

lemma record (h : Gone w v) : v.record = w.record := by
  simp [World.record,h.log,tearDownCalls_record]

lemma callBack (h : Gone w v) : v.player.callBack = false :=
  congrArg Control.callBack h.tornDown.control

lemma registered (h : Gone w v) : v.player.eventHandler.registered = false :=
  congrArg (fun c => c.eventHandler.registered) h.tornDown.control

end Gone

lemma act_eq (w : World) (hf : Faultless w) (hs : w.player.stopped = false) (r : Reaction) :
    r = .proceed ∧ r.act w = w ∨ r ≠ .proceed ∧ Gone w (r.act w) := by
  have hgone : Gone w (final (ZMediaPlayer.stop.run w)) := by
    obtain ⟨u,v,hv,-⟩ := Faultless.tearDown w hf
    obtain ⟨htorn,henv,hlog⟩ := tearDown_ok hv
    rw [run_stop,hs,if_neg (by simp),hv]
    exact ⟨htorn,henv,hlog⟩
  cases r with
  | proceed => exact .inl ⟨rfl,rfl⟩
  | stop => exact .inr ⟨by simp,hgone⟩
  | release => exact .inr ⟨by simp,hgone⟩

/-- A player whose handler has a client and that nobody has stopped. -/
structure Attended (w : World) : Prop where
  listening : Listening w
  running : w.player.stopped = false

/-- `v` is met while `m` is handled: the client has heard `cs` and has not stopped
the player. -/
structure Telling (m : Message) (before : List Obs) (released flag : Bool) (cs : List Callback)
    (v : World) : Prop where
  attended : Attended v
  faultless : Faultless v
  length : v.env.length = m.length
  position : v.player.mediaPlayer.position = m.position
  isReleased : v.player.mediaPlayer.isReleased = released
  flag : v.player.eventHandler.isOnPlayCallback = flag
  record : v.record = before ++ cs.map .callback

/-- The client has heard `cs` and stopped the player. -/
structure Silenced (before : List Obs) (cs : List Callback) (v : World) : Prop where
  callBack : v.player.callBack = false
  registered : v.player.eventHandler.registered = false
  faultless : Faultless v
  record : v.record = before ++ cs.map .callback

section
variable {m : Message} {before : List Obs} {released flag : Bool} {cs : List Callback} {v : World}

lemma Telling.called (h : Telling m before released flag cs v) (c : Call) :
    Telling m before released flag cs (v.called c) :=
  ⟨⟨⟨h.1.1.1,h.1.1.2⟩,h.1.2⟩,h.2,h.3,h.4,h.5,h.6,by simpa using h.record⟩

lemma Telling.mediaDuration (h : Telling m before released flag cs v) (length : ℤ) :
    Telling m before released flag cs (v.update fun p => { p with mediaDuration := length }) :=
  ⟨⟨⟨h.1.1.1,h.1.1.2⟩,h.1.2⟩,h.2,h.3,h.4,h.5,h.6,h.7⟩

lemma Telling.setFlag (h : Telling m before released flag cs v) (f : Bool) :
    Telling m before released f cs (v.update fun p =>
      { p with eventHandler := { p.eventHandler with isOnPlayCallback := f } }) :=
  ⟨⟨⟨h.1.1.1,h.1.1.2⟩,h.1.2⟩,h.2,h.3,h.4,h.5,rfl,h.7⟩

/-- The client answers `c` by going on or by stopping the player. -/
lemma Telling.react (h : Telling m before released flag cs v) (client : Client) (c : Callback) :
    client (before.filterMap Obs.asCallback ++ cs ++ [c]) = .proceed ∧
      Telling m before released flag (cs ++ [c]) (client.react c (v.observe (.callback c))) ∧
      client.react c (v.observe (.callback c)) = v.observe (.callback c) ∨
    client (before.filterMap Obs.asCallback ++ cs ++ [c]) ≠ .proceed ∧
      Silenced before (cs ++ [c]) (client.react c (v.observe (.callback c))) ∧
      Gone (v.observe (.callback c)) (client.react c (v.observe (.callback c))) := by
  have hrecord : (v.observe (.callback c)).record = before ++ (cs ++ [c]).map .callback := by
    simp [h.record]
  have htold : (v.observe (.callback c)).callbacks =
      before.filterMap Obs.asCallback ++ cs ++ [c] := by
    simp [World.callbacks,hrecord,List.filterMap_append,List.filterMap_map,Function.comp_def,
      Obs.asCallback]
  rw [← htold]
  rcases act_eq (v.observe (.callback c)) h.faultless h.attended.running
    (client (v.observe (.callback c)).callbacks) with ⟨hgo,he⟩ | ⟨hstop,hgone⟩
  · refine .inl ⟨hgo,?_,he⟩
    rw [Client.react,he]
    exact ⟨⟨⟨h.1.1.1,h.1.1.2⟩,h.1.2⟩,h.2,h.3,h.4,h.5,h.6,hrecord⟩
  · refine .inr ⟨hstop,⟨hgone.callBack,hgone.registered,fun c => ?_,hgone.record.trans hrecord⟩,hgone⟩
    rw [Client.react,hgone.env]
    exact h.faultless c

lemma Silenced.called (h : Silenced before cs v) (c : Call) : Silenced before cs (v.called c) :=
  ⟨h.1,h.2,h.3,by simpa using h.record⟩

lemma Silenced.setFlag (h : Silenced before cs v) (f : Bool) :
    Silenced before cs (v.update fun p =>
      { p with eventHandler := { p.eventHandler with isOnPlayCallback := f } }) :=
  ⟨h.1,h.2,h.3,h.4⟩

end

/-- `cs` is an initial part of `ds` that is empty only when `ds` is. -/
def Opens (cs ds : List Callback) : Prop := cs <+: ds ∧ cs.head? = ds.head?

/-- A message told to a client that may stop the player: it hears the deliveries up
to the callback in which it stops. -/
def Heard (g : Generation) (m : Message) (w v : World) : Prop :=
  let ds := g.deliveries w.player.eventHandler.isOnPlayCallback w.player.mediaPlayer.isReleased m
  ∃ cs, Opens cs ds ∧
    v.record = w.record ++ .entered (.handleMessage m.event) :: cs.map .callback ∧
    (cs = ds ∧ Attended v ∧ v.player.mediaPlayer.isReleased = w.player.mediaPlayer.isReleased ∧
      v.player.eventHandler.isOnPlayCallback =
        flagAfter w.player.eventHandler.isOnPlayCallback m.event ∨
    v.player.callBack = false ∧ v.player.eventHandler.registered = false)

lemma Telling.heard {g : Generation} {m : Message} {w v : World} {cs : List Callback} {flag : Bool}
    (h : Telling m (w.record ++ [.entered (.handleMessage m.event)])
      w.player.mediaPlayer.isReleased flag cs v)
    (hcs : g.deliveries w.player.eventHandler.isOnPlayCallback
      w.player.mediaPlayer.isReleased m = cs)
    (hflag : flag = flagAfter w.player.eventHandler.isOnPlayCallback m.event) : Heard g m w v :=
  ⟨cs,by simp [Opens,hcs],by simp [h.record],
    .inl ⟨hcs.symm,h.attended,h.isReleased,h.flag.trans hflag⟩⟩

lemma Silenced.heard {g : Generation} {m : Message} {w v : World} {cs : List Callback}
    (h : Silenced (w.record ++ [.entered (.handleMessage m.event)]) cs v)
    (hcs : Opens cs (g.deliveries w.player.eventHandler.isOnPlayCallback
      w.player.mediaPlayer.isReleased m)) : Heard g m w v :=
  ⟨cs,hcs,by simp [h.record],.inr ⟨h.callBack,h.registered⟩⟩

theorem step_heard (g : Generation) (client : Client) (m : Message) {w : World}
    (hw : Attended w) : Heard g m w (w.step g client.react m.step) := by
  obtain ⟨⟨hc,ho⟩,hs⟩ := hw
  have h0 : Telling m (w.record ++ [.entered (.handleMessage m.event)])
      w.player.mediaPlayer.isReleased w.player.eventHandler.isOnPlayCallback []
      ((w.arrive m.step.env).observe (.entered m.step.op)) :=
    ⟨⟨⟨hc,by simp [ho,hc]⟩,hs⟩,fun _ => rfl,rfl,rfl,rfl,rfl,by simp [Message.step]⟩
  simp only [World.step,run_exec_prog]
  generalize (w.arrive m.step.env).observe (.entered m.step.op) = v at h0 ⊢
  have hcb := h0.attended.listening.callBack
  have how := h0.attended.listening.mOwner
  have hf := h0.faultless
  simp only [Message.step,Op.prog,Generation.handleMessage_eq]
  cases he : m.event with
  | mediaPlayerPaused =>
    have h1 := (h0.called .getPosition).react client (.onPaused m.position)
    simp only [VideoPlayerEventHandler.handleMessage]
    simp [run_getPosition,run_notifyIfSet,hcb,how,hf _,h0.position]
    rcases h1 with ⟨-,h1,-⟩ | ⟨-,h1,-⟩
    · exact h1.heard (by simp [Generation.deliveries,he]) (by simp [flagAfter,he])
    · exact h1.heard (by simp [Opens,Generation.deliveries,he])
  | mediaPlayerStopped =>
    cases hrel : w.player.mediaPlayer.isReleased with
    | true =>
      have h1 := (h0.called .isReleased).setFlag false
      simp [VideoPlayerEventHandler.handleMessage,run_mediaPlayerIsReleased,how,hf _,
        h0.isReleased.trans hrel]
      exact h1.heard (by simp [Generation.deliveries,he,hrel]) (by simp [flagAfter,he])
    | false =>
      have h1 := (h0.called .isReleased).react client .onStopped
      simp [VideoPlayerEventHandler.handleMessage,run_mediaPlayerIsReleased,run_notifyIfSet,hcb,
        how,hf _,h0.isReleased.trans hrel]
      rcases h1 with ⟨-,h1,-⟩ | ⟨-,h1,-⟩
      · exact (h1.setFlag false).heard (by simp [Generation.deliveries,he,hrel]) (by simp [flagAfter,he])
      · exact (h1.setFlag false).heard (by simp [Opens,Generation.deliveries,he,hrel])
  | mediaPlayerEndReached =>
    by_cases hearly : g = .zMediaPlayer ∧ w.player.eventHandler.isOnPlayCallback = false
    · obtain ⟨rfl,hflag⟩ := hearly
      have h1 := ((h0.called .getLength).mediaDuration m.length).react client (.onPlay m.length)
      simp [VideoPlayerEventHandler.handleMessage,Generation.endReached,ZMediaPlayer.endReached,
        run_updateMediaDuration,run_notifyIfSet,hcb,how,hf _,h0.length,h0.flag.trans hflag]
      generalize client.react (.onPlay m.length) _ = x at h1 ⊢
      rcases h1 with ⟨-,h1,-⟩ | ⟨-,h1,-⟩
      · have h2 := h1.react client .onComplete
        simp [h1.attended.listening.callBack]
        rcases h2 with ⟨-,h2,-⟩ | ⟨-,h2,-⟩
        · exact h2.heard (by simp [Generation.deliveries,he,hflag]) (by simp [flagAfter,he])
        · exact h2.heard (by simp [Opens,Generation.deliveries,he,hflag])
      · simp [h1.callBack]
        exact h1.heard (by simp [Opens,Generation.deliveries,he,hflag])
    · have h1 := h0.react client .onComplete
      have hrun : ((g.endReached.exec client.react).run v) =
          .ok () (client.react .onComplete (v.observe (.callback .onComplete))) := by
        cases g with
        | zMediaPlayer =>
          have hflag : w.player.eventHandler.isOnPlayCallback = true := by simpa using hearly
          simp [Generation.endReached,ZMediaPlayer.endReached,run_notifyIfSet,hcb,
            h0.flag.trans hflag]
        | zMediaPlayer2 =>
          simp [Generation.endReached,ZMediaPlayer2.endReached,run_notifyIfSet,hcb]
      simp [VideoPlayerEventHandler.handleMessage,how,hrun]
      rcases h1 with ⟨-,h1,-⟩ | ⟨-,h1,-⟩
      · exact h1.heard (by simp [Generation.deliveries,he,hearly]) (by simp [flagAfter,he])
      · exact h1.heard (by simp [Opens,Generation.deliveries,he,hearly])
  | mediaPlayerPositionChanged =>
    cases hflag : w.player.eventHandler.isOnPlayCallback with
    | true =>
      have h1 := (((h0.called .getLength).mediaDuration m.length).called .getPosition).react client
        (.onPostPosition m.position)
      simp [VideoPlayerEventHandler.handleMessage,run_updateMediaDuration,run_getPosition,
        run_notify,hcb,how,hf _,h0.position,h0.length,h0.flag.trans hflag]
      rcases h1 with ⟨-,h1,-⟩ | ⟨-,h1,-⟩
      · exact h1.heard (by simp [Generation.deliveries,he,hflag]) (by simp [flagAfter,he,hflag])
      · exact h1.heard (by simp [Opens,Generation.deliveries,he,hflag])
    | false =>
      have h1 := ((h0.called .getLength).mediaDuration m.length).react client (.onPlay m.length)
      simp [VideoPlayerEventHandler.handleMessage,run_updateMediaDuration,run_getPosition,
        run_notifyIfSet,run_notify,hcb,how,hf _,h0.length,h0.flag.trans hflag]
      generalize client.react (.onPlay m.length) _ = x at h1 ⊢
      rcases h1 with ⟨-,h1,-⟩ | ⟨-,h1,-⟩
      · have h2 := ((h1.setFlag true).called .getPosition).react client (.onPostPosition m.position)
        simp [h1.attended.listening.callBack,h1.faultless _,h1.position]
        rcases h2 with ⟨-,h2,-⟩ | ⟨-,h2,-⟩
        · exact h2.heard (by simp [Generation.deliveries,he,hflag]) (by simp [flagAfter,he])
        · exact h2.heard (by simp [Opens,Generation.deliveries,he,hflag])
      · simp [h1.callBack,h1.faultless _]
        exact ((h1.setFlag true).called .getPosition).heard (by simp [Opens,Generation.deliveries,he,hflag])
  | mediaPlayerEncounteredError =>
    have h1 := h0.react client (.onError (.unknownException "ZMediaPlayer"))
    simp [VideoPlayerEventHandler.handleMessage,run_notify,hcb,how]
    rcases h1 with ⟨-,h1,-⟩ | ⟨-,h1,-⟩
    · exact h1.heard (by simp [Generation.deliveries,he]) (by simp [flagAfter,he])
    · exact h1.heard (by simp [Opens,Generation.deliveries,he])
  | hardwareAccelerationError =>
    have h1 := h0.react client .onHardwareAccelerationError
    simp [VideoPlayerEventHandler.handleMessage,run_notify,hcb,how]
    rcases h1 with ⟨-,h1,-⟩ | ⟨-,h1,-⟩
    · exact h1.heard (by simp [Generation.deliveries,he]) (by simp [flagAfter,he])
    · exact h1.heard (by simp [Opens,Generation.deliveries,he])
  | _ =>
    simp [VideoPlayerEventHandler.handleMessage,how]
    exact h0.heard (by simp [Generation.deliveries,he]) (by simp [flagAfter,he])

end ZenMedia
