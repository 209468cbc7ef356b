import ZenMedia.ReentrantClients

/-! Whether a message is handled safely when the client may stop the player from
inside its callbacks: the handler returns, so it meets no null `callBack`, and
calls no method of a released media player. -/
namespace ZenMedia
open Reentrant TraceLaws

/-- The methods of `VLCMediaPlayer`. -/
def Call.onMediaPlayer : Call → Bool
  | setMedia | play | stop | pause | setPosition _ | getPosition | isPlaying | getLength
  | setVideoTitleDisplay | isReleased | release | getVLCVout => true
  | _ => false

def Obs.misuses : Obs → Bool
  | call c released => released && c.onMediaPlayer
  | _ => false

/-- Nothing logged since `w` is a call of a released media player. -/
def Proper (w v : World) : Prop := Appends (fun o => o.misuses = false) w v

lemma tearDownCalls_proper {p : Player} (hp : p.mediaPlayer.isReleased = false) :
    ∀ o ∈ p.tearDownCalls, o.misuses = false := by
  have hrelease : ∀ o ∈ p.mediaPlayer.releaseCalls, o.misuses = false := by
    intro o ho
    rcases List.mem_append.mp ho with ho | ho
    · obtain ⟨media,-,rfl⟩ := List.mem_map.mp ho
      rfl
    · rw [List.mem_singleton.mp ho]
      rfl
  intro o ho
  rw [Player.tearDownCalls,hp] at ho
  rcases List.mem_append.mp ho with ho | ho
  · obtain ⟨c,-,rfl⟩ := List.mem_map.mp ho
    rfl
  · rcases List.mem_cons.mp ho with rfl | ho
    · rfl
    · by_cases hcount : p.mediaPlayer.mNativeRefCount = 1
      · exact hrelease o (by simpa [hcount] using ho)
      · simp [hcount] at ho

namespace Proper
variable {w v x : World}

lemma called (h : Proper w v) (hv : v.player.mediaPlayer.isReleased = false) (c : Call) :
    Proper w (v.called c) := Appends.trans h (.one rfl (by simp [Obs.misuses,hv]))

lemma callback (h : Proper w v) (c : Callback) : Proper w (v.observe (.callback c)) :=
  Appends.trans h (.one rfl rfl)

lemma update (h : Proper w v) (f : Player → Player) : Proper w (v.update f) := h

lemma gone (h : Proper w v) (hv : v.player.mediaPlayer.isReleased = false) (hx : Gone v x) :
    Proper w x := Appends.trans h ⟨v.player.tearDownCalls,hx.log,tearDownCalls_proper hv⟩

end Proper

lemma Telling.proper_react {m : Message} {before : List Obs} {flag : Bool} {cs : List Callback}
    {w v : World} (h : Telling m before false flag cs v) (hp : Proper w v) (client : Client)
    (c : Callback) : Proper w (client.react c (v.observe (.callback c))) := by
  rcases h.react client c with ⟨-,-,he⟩ | ⟨-,-,hgone⟩
  · rw [he]
    exact hp.callback c
  · exact (hp.callback c).gone h.isReleased hgone

/-- What the handler does with a message while the client reacts to its callbacks. -/
def World.handleMessage (g : Generation) (client : Client) (w : World) (m : Message) :
    EStateM.Result Throwable World Unit := ((m.step.prog g).exec client.react).run w

/-- The handler returns and the media player is used only while it is not released. -/
def Safe (w : World) (r : EStateM.Result Throwable World Unit) : Prop :=
  ∃ v, r = .ok () v ∧ Proper w v

/-- The client goes on when a first position makes the handler call `onPlay`. -/
def PlaysOn (client : Client) (w : World) (m : Message) : Prop :=
  m.event = .mediaPlayerPositionChanged → w.player.eventHandler.isOnPlayCallback = false →
    client (w.callbacks ++ [.onPlay m.length]) = .proceed

theorem safe_iff (g : Generation) (client : Client) (m : Message) {w : World} (hw : Attended w)
    (hrel : w.player.mediaPlayer.isReleased = false) :
    Safe w (w.handleMessage g client m) ↔ PlaysOn client w m := by
  obtain ⟨⟨hc,ho⟩,hs⟩ := hw
  have h0 : Telling m (w.record ++ [.entered (.handleMessage m.event)])
      false w.player.eventHandler.isOnPlayCallback []
      ((w.arrive m.step.env).observe (.entered m.step.op)) :=
    ⟨⟨⟨hc,by simp [ho,hc]⟩,hs⟩,fun _ => rfl,rfl,rfl,hrel,rfl,by simp [Message.step]⟩
  have hp : Proper w ((w.arrive m.step.env).observe (.entered m.step.op)) :=
    ⟨[.entered m.step.op],rfl,by simp [Obs.misuses]⟩
  simp only [World.handleMessage,run_exec_prog]
  generalize (w.arrive m.step.env).observe (.entered m.step.op) = v at h0 hp ⊢
  have hcb := h0.attended.listening.callBack
  have how := h0.attended.listening.mOwner
  have hf := h0.faultless
  simp only [Message.step,Op.prog,Generation.handleMessage_eq]
  cases he : m.event with
  | mediaPlayerPaused =>
    have hp1 := (h0.called .getPosition).proper_react (hp.called h0.isReleased .getPosition) client
      (.onPaused m.position)
    simp [PlaysOn,he,VideoPlayerEventHandler.handleMessage,run_getPosition,run_notifyIfSet,hcb,how,
      hf _,h0.position]
    exact ⟨_,rfl,hp1⟩
  | mediaPlayerStopped =>
    have hp1 := (h0.called .isReleased).proper_react (hp.called h0.isReleased .isReleased) client
      .onStopped
    simp [PlaysOn,he,VideoPlayerEventHandler.handleMessage,run_mediaPlayerIsReleased,
      run_notifyIfSet,hcb,how,hf _,h0.isReleased]
    exact ⟨_,rfl,hp1.update _⟩
  | mediaPlayerEndReached =>
    by_cases hearly : g = .zMediaPlayer ∧ w.player.eventHandler.isOnPlayCallback = false
    · obtain ⟨rfl,hflag⟩ := hearly
      have hp0 := (hp.called h0.isReleased .getLength).update fun p =>
        { p with mediaDuration := m.length }
      have h1 := (h0.called .getLength).mediaDuration m.length
      have hp1 := h1.proper_react hp0 client (.onPlay m.length)
      have h2 := h1.react client (.onPlay m.length)
      simp [PlaysOn,he,VideoPlayerEventHandler.handleMessage,Generation.endReached,
        ZMediaPlayer.endReached,run_updateMediaDuration,run_notifyIfSet,hcb,how,hf _,h0.length,
        h0.flag.trans hflag]
      generalize client.react (.onPlay m.length) _ = x at hp1 h2 ⊢
      rcases h2 with ⟨-,h2,-⟩ | ⟨-,h2,-⟩
      · simp [h2.attended.listening.callBack]
        exact ⟨_,rfl,h2.proper_react hp1 client .onComplete⟩
      · simp [h2.callBack]
        exact ⟨_,rfl,hp1⟩
    · have hp1 := h0.proper_react hp client .onComplete
      have hrun : ((g.endReached.exec client.react).run v) =
          .ok () (client.react .onComplete (v.observe (.callback .onComplete))) := by
        cases g with
        | zMediaPlayer =>
          have hflag : w.player.eventHandler.isOnPlayCallback = true := by simpa using hearly
          simp [Generation.endReached,ZMediaPlayer.endReached,run_notifyIfSet,hcb,
            h0.flag.trans hflag]
        | zMediaPlayer2 =>
          simp [Generation.endReached,ZMediaPlayer2.endReached,run_notifyIfSet,hcb]
      simp [PlaysOn,he,VideoPlayerEventHandler.handleMessage,how,hrun]
      exact ⟨_,rfl,hp1⟩
  | mediaPlayerPositionChanged =>
    have hp0 := (hp.called h0.isReleased .getLength).update fun p =>
      { p with mediaDuration := m.length }
    have h1 := (h0.called .getLength).mediaDuration m.length
    cases hflag : w.player.eventHandler.isOnPlayCallback with
    | true =>
      have hp1 := (h1.called .getPosition).proper_react (hp0.called h1.isReleased .getPosition)
        client (.onPostPosition m.position)
      simp [PlaysOn,he,hflag,VideoPlayerEventHandler.handleMessage,run_updateMediaDuration,
        run_getPosition,run_notify,hcb,how,hf _,h0.position,h0.length,h0.flag.trans hflag]
      exact ⟨_,rfl,hp1⟩
    | false =>
      have hp1 := h1.proper_react hp0 client (.onPlay m.length)
      have h2 := h1.react client (.onPlay m.length)
      have htold : (w.record ++ [Obs.entered (.handleMessage m.event)]).filterMap Obs.asCallback ++
          [] ++ [Callback.onPlay m.length] = w.callbacks ++ [.onPlay m.length] := by
        simp [World.callbacks,Obs.asCallback]
      rw [htold] at h2
      simp [PlaysOn,he,hflag,VideoPlayerEventHandler.handleMessage,run_updateMediaDuration,
        run_getPosition,run_notifyIfSet,run_notify,hcb,how,hf _,h0.length,h0.flag.trans hflag]
      generalize client.react (.onPlay m.length) _ = x at hp1 h2 ⊢
      rcases h2 with ⟨hgo,h2,-⟩ | ⟨hstop,h2,-⟩
      · have h3 := (h2.setFlag true).called .getPosition
        have hp3 := (hp1.update _).called (h2.setFlag true).isReleased .getPosition
        simp [h2.attended.listening.callBack,h2.faultless _,hgo]
        exact ⟨_,rfl,h3.proper_react hp3 client _⟩
      · -- the receiver is null by the time the position has been read
        simp [h2.callBack,h2.faultless _,hstop,Safe]
  | mediaPlayerEncounteredError =>
    have hp1 := h0.proper_react hp client (.onError (.unknownException "ZMediaPlayer"))
    simp [PlaysOn,he,VideoPlayerEventHandler.handleMessage,run_notify,hcb,how]
    exact ⟨_,rfl,hp1⟩
  | hardwareAccelerationError =>
    have hp1 := h0.proper_react hp client .onHardwareAccelerationError
    simp [PlaysOn,he,VideoPlayerEventHandler.handleMessage,run_notify,hcb,how]
    exact ⟨_,rfl,hp1⟩
  | _ =>
    simp [PlaysOn,he,VideoPlayerEventHandler.handleMessage,how]
    exact ⟨_,rfl,hp⟩

/-! ### Whole runs -/

/-- A handler that `stop` has removed gets no message any more, a pending one
included. -/
def World.dispatch (g : Generation) (client : Client) (w : World) (m : Message) : World :=
  if w.player.eventHandler.registered then final (w.handleMessage g client m) else w

def World.dispatchAll (g : Generation) (client : Client) (w : World) (ms : List Message) : World :=
  ms.foldl (World.dispatch g client) w

lemma dispatchAll_concat (g : Generation) (client : Client) (w : World) (ms : List Message)
    (m : Message) :
    w.dispatchAll g client (ms ++ [m]) = (w.dispatchAll g client ms).dispatch g client m := by
  simp [World.dispatchAll]

/-- While the handler is registered the player is attended and not released. -/
def InUse (w : World) : Prop := w.player.eventHandler.registered = true →
  Attended w ∧ w.player.mediaPlayer.isReleased = false

lemma InUse.dispatch {w : World} (h : InUse w) (g : Generation) (client : Client) (m : Message) :
    InUse (w.dispatch g client m) := by
  unfold World.dispatch
  split
  · rename_i hreg
    obtain ⟨hat,hrel⟩ := h hreg
    obtain ⟨cs,-,-,⟨-,hat',hrel',-⟩ | ⟨-,hgone⟩⟩ := step_heard g client m hat
    · exact fun _ => ⟨hat',hrel'.trans hrel⟩
    · intro hreg'
      exact absurd hreg' (by simpa [World.handleMessage,World.step] using hgone)
  · exact h

lemma InUse.dispatchAll {w : World} (h : InUse w) (g : Generation) (client : Client)
    (ms : List Message) : InUse (w.dispatchAll g client ms) := by
  induction ms using List.reverseRecOn with
  | nil => exact h
  | append_singleton ms m ih =>
    rw [dispatchAll_concat]
    exact ih.dispatch g client m

/-- Whether `Q` holds of every message dispatched and the world that it meets. -/
def EachDispatched (g : Generation) (client : Client) (w : World) (ms : List Message)
    (Q : World → Message → Prop) : Prop :=
  ∀ pre m post, ms = pre ++ m :: post →
    (w.dispatchAll g client pre).player.eventHandler.registered = true →
      Q (w.dispatchAll g client pre) m

theorem handling_safe_iff (g : Generation) (client : Client) (w : World) (hw : InUse w)
    (ms : List Message) :
    EachDispatched g client w ms (fun v m => Safe v (v.handleMessage g client m)) ↔
      EachDispatched g client w ms (PlaysOn client) := by
  have hmessage : ∀ pre m,
      (w.dispatchAll g client pre).player.eventHandler.registered = true →
      (Safe (w.dispatchAll g client pre) ((w.dispatchAll g client pre).handleMessage g client m) ↔
        PlaysOn client (w.dispatchAll g client pre) m) := by
    intro pre m hreg
    obtain ⟨hat,hrel⟩ := hw.dispatchAll g client pre hreg
    exact safe_iff g client m hat hrel
  constructor
  · intro h pre m post he hreg
    exact (hmessage pre m hreg).mp (h pre m post he hreg)
  · intro h pre m post he hreg
    exact (hmessage pre m hreg).mpr (h pre m post he hreg)

lemma Born.inUse {w : World} (h : Born true w) : InUse w :=
  fun _ => ⟨⟨h.fresh.listening,h.stopped⟩,by simp [MediaPlayer.isReleased,h.mNativeRefCount]⟩

/-- A client that releases the player in its first `onPlay`. -/
theorem onPlay_release_unsafe :
    ¬EachDispatched .zMediaPlayer (fun _ => .release) ViewClass.audioPlayer.built
      [⟨.mediaPlayerPositionChanged,7,1/2,false⟩]
      (fun v m => Safe v (v.handleMessage .zMediaPlayer (fun _ => .release) m)) := by
  intro h
  obtain ⟨v,hv,-⟩ := h [] _ [] rfl rfl
  have hnull : ViewClass.audioPlayer.built.handleMessage .zMediaPlayer (fun _ => .release)
      ⟨.mediaPlayerPositionChanged,7,1/2,false⟩ = .error .nullPointer (final
        (ViewClass.audioPlayer.built.handleMessage .zMediaPlayer (fun _ => .release)
          ⟨.mediaPlayerPositionChanged,7,1/2,false⟩)) := rfl
  exact absurd (hnull.symm.trans hv) (by simp)

theorem onPause_release_safe :
    EachDispatched .zMediaPlayer2 (fun told => if told.length = 3 then .release else .proceed)
      ViewClass.textureViewPlayer2.built
      [⟨.mediaPlayerPositionChanged,7,1/2,false⟩,⟨.mediaPlayerPaused,7,1/2,false⟩,
        ⟨.mediaPlayerPositionChanged,7,1,false⟩]
      (fun v m => Safe v (v.handleMessage .zMediaPlayer2
        (fun told => if told.length = 3 then .release else .proceed) m)) := by
  refine (handling_safe_iff _ _ _ (built_constructed _).born.inUse _).mpr ?_
  intro pre m post he hreg
  rcases pre with _ | ⟨a,_ | ⟨b,_ | ⟨c,pre⟩⟩⟩ <;> simp at he
  · obtain ⟨rfl,-⟩ := he
    exact fun _ _ => rfl
  · obtain ⟨rfl,rfl,-⟩ := he
    exact fun h => by simp at h
  · obtain ⟨rfl,rfl,rfl,-⟩ := he
    exact absurd hreg (by decide)

end ZenMedia
