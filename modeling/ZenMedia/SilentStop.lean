import ZenMedia.SurfaceRestart
import ZenMedia.StoppedRuns

/-! Silence after a stop. Neither `attached` nor `requestPlay` is taken back, so it rests
on `stopped`, on the cleared callback and on the flags of the media player, whichever
notifications are still to come and whatever program the stop has interrupted. `stopped`
is set first, so what a stop leaves undone when a call throws, no later one does. -/
namespace ZenMedia
open Reentrant

def Call.speaks : Call → Bool
  | nativeSetMedia _ | nativePlay => true
  | _ => false

/-- The native player is given a media or started, or the client is told something. -/
def Obs.speaks : Obs → Bool
  | call c _ => c.speaks
  | callback _ => true
  | _ => false

def Op.isNotification : Op → Bool
  | handleSurfaceAvailable | onSurfacesCreated | onSurfacesDestroyed | onNewLayout _ => true
  | handleMessage _ => true
  | _ => false

/-- What silence rests on. -/
structure Quieted (p : Player) : Prop where
  stopped : p.stopped = true
  callBack : p.callBack = false
  served : p.mediaPlayer.mPlayRequested = true → p.mediaPlayer.mPlaying = true

/-- The fields that it reads. -/
def Player.guards (p : Player) : Bool × Bool × Bool × Bool :=
  (p.stopped,p.callBack,p.mediaPlayer.mPlayRequested,p.mediaPlayer.mPlaying)

lemma Quieted.of_guards {p q : Player} (h : Quieted p) (hg : q.guards = p.guards) : Quieted q := by
  simp only [Player.guards,Prod.mk.injEq] at hg
  obtain ⟨hstopped,hcallBack,hrequested,hplaying⟩ := hg
  constructor
  · rw [hstopped]
    exact h.stopped
  · rw [hcallBack]
    exact h.callBack
  · rw [hrequested,hplaying]
    exact h.served

/-- A frame about quieted players. -/
structure Dormant (F : Frame World) : Prop where
  awake : ∀ w v, ¬Quieted w.player → F.rel w v
  call : ∀ c, c.speaks = false → Maintains F (call c)
  update : ∀ f, (∀ p, (f p).guards = p.guards) → Maintains F (update f)

namespace Dormant
variable {F : Frame World} (h : Dormant F)
include h

/-- Code that does nothing to a quieted player. -/
lemma of_idle {m : M Unit} (hm : ∀ w, Quieted w.player → final (m.run w) = w) : Maintains F m := by
  intro w
  by_cases hw : Quieted w.player
  · rw [hm w hw]
    exact F.refl w
  · exact h.awake _ _ hw

omit h in
lemma rests_invoke (c : Callback) : Prog.Rests F (invoke c) :=
  .bind_lift fun _ => (Prog.Keeps.yield c).rests

/-- A program that returns at once for a quieted player. -/
lemma keeps_of_idle {p : P Unit} (hp : ∀ w, Quieted w.player → p w = .ret () w)
    (hrests : Prog.Rests F p) : Prog.Keeps F p := by
  intro w
  by_cases hw : Quieted w.player
  · rw [hp w hw]
    exact F.refl w
  · exact (hrests w).keeps fun v => h.awake _ v hw

lemma notifyIfSet (argument : M Callback) : Prog.Keeps F (notifyIfSet argument) := by
  apply h.keeps_of_idle
  · intro w hw
    have hset : callBackSet.run w = .ok false w := by
      rw [run_callBackSet,hw.callBack]
    simp [ZenMedia.notifyIfSet,Prog.bind_apply,Prog.monadLift_apply,Prog.lift,hset,Res.bind]
    rfl
  · exact .bind_lift fun _ => .ite (.bind_lift fun c => rests_invoke c) (.pure _)

lemma notify {argument : M Callback} (hargument : Maintains F argument) :
    Prog.Keeps F (notify argument) := by
  have hrests : Prog.Rests F (ZenMedia.notify argument) :=
    .bind_lift fun b => .bind_lift fun c => .ite (rests_invoke c) (Prog.Keeps.raise _).rests
  intro w
  by_cases hw : Quieted w.player
  · have hset : callBackSet.run w = .ok false w := by
      rw [run_callBackSet,hw.callBack]
    have hthrows : Prog.Keeps F (monadLift argument >>= fun _ => Prog.raise .nullPointer : P Unit) :=
      .bind (.lift hargument) fun _ => .raise _
    have hsame : ZenMedia.notify argument w =
        (monadLift argument >>= fun _ => Prog.raise .nullPointer : P Unit) w := by
      simp [ZenMedia.notify,Prog.bind_apply,Prog.monadLift_apply,Prog.lift,hset,Res.bind]
    rw [hsame]
    exact hthrows w
  · exact (hrests w).keeps fun v => h.awake _ v hw

lemma updateMediaDuration : Maintains F updateMediaDuration :=
  .bind (.bind (h.call _ rfl) fun _ => Maintains.get.bind fun _ => .pure _) fun _ =>
    h.update _ fun _ => rfl

lemma getPosition : Maintains F MediaPlayer.getPosition :=
  .bind (h.call _ rfl) fun _ => (maintains_player F).bind fun _ => .pure _

lemma setFlag (flag : Bool) : Maintains F (updateHandler fun h => { h with isOnPlayCallback := flag }) :=
  h.update _ fun _ => rfl

lemma endReached (g : Generation) : Prog.Keeps F g.endReached := by
  have hcomplete : Prog.Keeps F (ZenMedia.notifyIfSet (pure .onComplete)) := h.notifyIfSet _
  cases g with
  | zMediaPlayer =>
    refine .bind (.lift ((maintains_player F).bind fun _ => .pure _)) fun b => .ite hcomplete ?_
    exact .bind (.lift h.updateMediaDuration) fun _ => .bind (h.notifyIfSet _) fun _ => hcomplete
  | zMediaPlayer2 => exact hcomplete

lemma handleMessage (g : Generation) (e : Event) : Prog.Keeps F (g.handleMessage e) := by
  rw [Generation.handleMessage_eq]
  refine .bind (.lift ((maintains_player F).bind fun _ => .pure _)) fun owner => .ite ?_ (.pure _)
  cases e with
  | mediaPlayerPaused => exact h.notifyIfSet _
  | mediaPlayerStopped =>
    refine .bind (.lift (.bind (h.call _ rfl) fun _ => ?_)) fun _ => .ite (.lift (h.setFlag false)) ?_
    · exact (maintains_player F).bind fun _ => .pure _
    · exact .bind (h.notifyIfSet _) fun _ => .lift (h.setFlag false)
  | mediaPlayerEndReached => exact h.endReached g
  | mediaPlayerPositionChanged =>
    have hpost : Prog.Keeps F (ZenMedia.notify (do pure (.onPostPosition (← MediaPlayer.getPosition)))) :=
      h.notify (h.getPosition.bind fun _ => .pure _)
    refine .bind (.lift h.updateMediaDuration) fun _ => .bind (.lift ?_) fun _ => .ite hpost ?_
    · exact (maintains_player F).bind fun _ => .pure _
    · exact .bind (h.notifyIfSet _) fun _ => .bind (.lift (h.setFlag true)) fun _ => hpost
  | mediaPlayerEncounteredError => exact h.notify (.pure _)
  | hardwareAccelerationError => exact h.notify (.pure _)
  | _ => exact .pure _

omit h in
lemma rests_reportError (e : Throwable) : Prog.Rests F (BaseViewPlayer.reportError e) :=
  .bind_lift fun _ => .ite (.bind_lift fun c => rests_invoke c) (.pure _)

/-- A surface that comes late is not looked at. -/
lemma handleSurfaceAvailable : Prog.Keeps F BaseViewPlayer.handleSurfaceAvailable := by
  apply h.keeps_of_idle
  · intro w hw
    have hstopped : ZMediaPlayer.isStopped.run w = .ok true w :=
      congrArg (EStateM.Result.ok · w) hw.stopped
    simp [BaseViewPlayer.handleSurfaceAvailable,Prog.bind_apply,Prog.monadLift_apply,Prog.lift,
      hstopped,Res.bind]
    rfl
  · exact .bind_lift fun b => .ite (.pure _) (.attempt rests_reportError)

/-- A play request that was deferred is gone or has been served. -/
lemma onSurfacesCreated : Maintains F MediaPlayer.onSurfacesCreated := by
  apply h.of_idle
  intro w hw
  have hserved := hw.served
  cases hrequested : w.player.mediaPlayer.mPlayRequested with
  | false => simp [MediaPlayer.onSurfacesCreated,hrequested]
  | true => simp [MediaPlayer.onSurfacesCreated,hserved hrequested]

lemma onSurfacesDestroyed : Maintains F MediaPlayer.onSurfacesDestroyed :=
  (maintains_player F).bind fun _ => .ite (h.call _ rfl) (.pure _)

lemma onNewLayout (layout : VideoLayout) : Maintains F (ZMediaPlayer.onNewLayout layout) := by
  refine .bind (h.update _ fun _ => rfl) fun _ => (maintains_player F).bind fun p => ?_
  refine Maintains.get.bind fun w => .ite ?_ (.pure _)
  refine .bind (h.call _ rfl) fun _ => .bind (h.call _ rfl) fun _ => ?_
  split
  · exact h.call _ rfl
  · exact .pure _

/-- The notifications. -/
theorem notification (g : Generation) {op : Op} (hop : op.isNotification = true) :
    Prog.Keeps F (op.prog g) := by
  cases op with
  | handleSurfaceAvailable => exact h.handleSurfaceAvailable
  | handleMessage event => exact h.handleMessage g event
  | onSurfacesCreated => exact .lift h.onSurfacesCreated
  | onSurfacesDestroyed => exact .lift h.onSurfacesDestroyed
  | onNewLayout layout => exact .lift (h.onNewLayout layout)
  | _ => simp [Op.isNotification] at hop

/-- What is left of any operation after a callback. -/
theorem rests (g : Generation) (op : Op) : Prog.Rests F (op.prog g) := by
  cases op with
  | requestPlay hasVideo =>
    refine .bind (.attempt fun e => ?_) fun _ => .pure _
    exact (rests_reportError e).bind fun _ => .pure _
  | handleSurfaceAvailable => exact h.handleSurfaceAvailable.rests
  | handleMessage event => exact (h.handleMessage g event).rests
  | getDuration => exact .bind_lift fun _ => .pure _
  | _ => exact .lift _

end Dormant

/-! ### Silence -/

/-- A quieted player stays quieted and the log gets nothing that speaks. -/
def silent : Frame World := .under (fun w => Quieted w.player) (appending fun o => o.speaks = false)

lemma silent_dormant : Dormant silent where
  awake _ _ hw h := absurd h hw
  call c hc := by
    intro w hw
    rw [final_run_call]
    exact ⟨hw,.one rfl hc⟩
  update f hf := fun w hw => ⟨hw.of_guards (hf w.player),.refl w⟩

lemma silent_enter (s : Step) : Maintains silent s.enter := fun _ hw => ⟨⟨hw.1,hw.2,hw.3⟩,.one rfl rfl⟩

/-! ### Owners -/

/-- A player that still has its callback has not lost its owner. -/
def Owned (w : World) : Prop := w.player.callBack = true → w.player.eventHandler.mOwner = true

namespace Owned

lemma of_steady {w v : World} (h : steady.rel w v) (hw : Owned w) : Owned v := by
  intro hc
  have hcallBack : w.player.callBack = true := h.callBack.symm.trans hc
  exact (h.mOwner hcallBack).trans (hw hcallBack)

lemma stop : Maintains (.ofInvariant Owned) ZMediaPlayer.stop := by
  intro w hw hc
  have h := stop_standing w
  have hcallBack : w.player.callBack = true := by
    by_contra hcleared
    rw [h.callBack (Bool.eq_false_of_not_eq_true hcleared)] at hc
    cases hc
  exact h.mOwner.trans (hw hcallBack)

/-- Whatever is entered. -/
lemma prog (g : Generation) (s : Step) : Prog.Keeps (.ofInvariant Owned) (s.prog g) := by
  refine .bind (.lift fun w => of_steady (steady_enter w s)) fun _ => ?_
  obtain ⟨op,env⟩ := s
  by_cases hop : op.isStop = true
  · have hstop : Prog.Keeps (.ofInvariant Owned) (monadLift g.stop : P Unit) := by
      rw [Generation.stop_eq]
      exact .lift stop
    cases op with
    | stop => exact hstop
    | release => exact hstop
    | _ => simp [Op.isStop] at hop
  · exact Steady.op (fun _ _ => of_steady) g (Bool.eq_false_of_not_eq_true hop)

end Owned

/-! ### What breaks the silence -/

section speaking
variable (g : Generation) (m : Machine World Throwable Callback)

lemma not_silent {w v u : World} {o : Obs} (hv : w.log <+: v.log) (hu : u.log = v.log ++ [o])
    (ho : o.speaks = true) : ¬Appends (fun o => o.speaks = false) w u := by
  obtain ⟨old,hold⟩ := hv
  rintro ⟨new,hlog,hall⟩
  have hnew : new = old ++ [o] := by
    apply List.append_cancel_left
    rw [← hlog,hu,← hold,List.append_assoc]
  have := hall o (by simp [hnew])
  simp [ho] at this

/-- An error is still told to a callback that is there. -/
lemma callBack_speaks (hc : m.state.player.callBack = true) (hm : Owned m.state) :
    ¬Appends (fun o => o.speaks = false) m.state
      (m.step (Step.prog g) (.enter ⟨.handleMessage .mediaPlayerEncounteredError,{}⟩)).state := by
  let x := (m.state.arrive {}).observe (.entered (.handleMessage .mediaPlayerEncounteredError))
  let told : Callback := .onError (.unknownException "ZMediaPlayer")
  have howner : x.player.eventHandler.mOwner = true := by simp [x,hc,hm hc]
  have hx : x.player.callBack = true := hc
  have hhandle : g.handleMessage .mediaPlayerEncounteredError x =
      .yield told (x.observe (.callback told)) (fun v => .ret () v) := by
    rw [Generation.handleMessage_eq]
    simp [VideoPlayerEventHandler.handleMessage,Prog.bind_apply,Prog.monadLift_apply,Prog.lift,
      Res.bind,howner,notify,hx,invoke,Prog.yield,told]
  have hstep : (m.step (Step.prog g) (.enter ⟨.handleMessage .mediaPlayerEncounteredError,{}⟩)).state =
      x.observe (.callback told) := by
    change (((g.handleMessage .mediaPlayerEncounteredError x)).settle m.frames).state = _
    rw [hhandle]
    rfl
  rw [hstep]
  exact not_silent (List.prefix_append _ _) rfl rfl

/-- A start that waits for its surface is made up for when it comes. -/
lemma deferred_speaks (hrequested : m.state.player.mediaPlayer.mPlayRequested = true)
    (hplaying : m.state.player.mediaPlayer.mPlaying = false) :
    ¬Appends (fun o => o.speaks = false) m.state
      (m.step (Step.prog g) (.enter ⟨.onSurfacesCreated,{ window := some .ready }⟩)).state := by
  let x := (m.state.arrive { window := some .ready }).observe (.entered .onSurfacesCreated)
  let asked := (x.called .play).update fun p =>
    { p with mediaPlayer := { p.mediaPlayer with mPlayRequested := true } }
  let started := (asked.update fun p =>
    { p with mediaPlayer := { p.mediaPlayer with mPlaying := true } }).called .nativePlay
  have hx : x.player.mediaPlayer.mPlayRequested = true ∧ x.player.mediaPlayer.mPlaying = false :=
    ⟨hrequested,hplaying⟩
  have hrun : MediaPlayer.onSurfacesCreated.run x = .ok () started := by
    have hthrows : ∀ c, x.env.throws c = false := fun _ => rfl
    have hready : x.player.mediaPlayer.mWindow = .ready := rfl
    simp [MediaPlayer.onSurfacesCreated,MediaPlayer.play,MediaPlayer.areSurfacesWaiting,
      MediaPlayer.startNative,run_call,hx.1,hx.2,hthrows,hready,started,asked]
  have hstep : (m.step (Step.prog g)
      (.enter ⟨.onSurfacesCreated,{ window := some .ready }⟩)).state = started := by
    change ((Prog.lift MediaPlayer.onSurfacesCreated x).settle m.frames).state = started
    rw [Prog.lift,hrun]
    rfl
  rw [hstep]
  have hasked : m.state.log <+: asked.log := (List.prefix_append _ _).trans (List.prefix_append _ _)
  exact not_silent hasked rfl rfl

end speaking

/-! ### The stop -/

lemma enter_stop (g : Generation) (m : Machine World Throwable Callback) {s : Step}
    (hs : s.op.isStop = true) : (m.step (Step.prog g) (.enter s)) =
      ⟨final (ZMediaPlayer.stop.run ((m.state.arrive s.env).observe (.entered s.op))),m.frames⟩ := by
  have hprog : s.prog g m.state =
      Prog.lift ZMediaPlayer.stop ((m.state.arrive s.env).observe (.entered s.op)) := by
    obtain ⟨op,env⟩ := s
    cases op with
    | stop => exact congrArg (fun p : M Unit => Prog.lift p _) g.stop_eq
    | release => exact congrArg (fun p : M Unit => Prog.lift p _) g.stop_eq
    | _ => simp [Op.isStop] at hs
  rw [Machine.step,hprog,Prog.lift]
  cases ZMediaPlayer.stop.run ((m.state.arrive s.env).observe (.entered s.op)) <;> rfl

/-- A stop that returns leaves the player quieted, unless it finds it stopped and not quieted. -/
lemma stop_quieted_iff {w : World} (hreturns : ∃ v, ZMediaPlayer.stop.run w = .ok () v) :
    Quieted (final (ZMediaPlayer.stop.run w)).player ↔ w.player.stopped = false ∨ Quieted w.player := by
  obtain ⟨v,hv⟩ := hreturns
  cases hstopped : w.player.stopped with
  | true =>
    rw [run_stop,if_pos hstopped,final_ok]
    simp
  | false =>
    rw [hv,final_ok]
    rw [run_stop,hstopped,if_neg Bool.false_ne_true] at hv
    have hdown := (tearDown_ok hv).1
    refine iff_of_true ⟨?_,?_,fun hrequested => ?_⟩ (.inl rfl)
    · exact congrArg Control.stopped hdown.control
    · exact congrArg Control.callBack hdown.control
    · exact absurd (hdown.mPlayRequested.symm.trans hrequested) Bool.false_ne_true

/-- Nothing is set right by a stop that finds the player stopped already. -/
theorem silent_after_stop_iff (g : Generation) (callback : Bool) (w : World)
    (hw : Constructed g callback w) (before : List (Move Step)) (s : Step) (hs : s.op.isStop = true)
    (hreturns : ∃ v, ZMediaPlayer.stop.run ((((Machine.mk w []).run (Step.prog g) before).state.arrive
      s.env).observe (.entered s.op)) = .ok () v) :
    (∀ after : List (Move Step), (∀ t, .enter t ∈ after → t.op.isNotification = true) →
      Appends (fun o => o.speaks = false)
        ((Machine.mk w []).run (Step.prog g) (before ++ [.enter s])).state
        ((Machine.mk w []).run (Step.prog g) (before ++ .enter s :: after)).state) ↔
    ((Machine.mk w []).run (Step.prog g) before).state.player.stopped = false ∨
      Quieted ((Machine.mk w []).run (Step.prog g) before).state.player := by
  let m := (Machine.mk w []).run (Step.prog g) before
  let n := m.step (Step.prog g) (.enter s)
  have hrun : ∀ after, (Machine.mk w []).run (Step.prog g) (before ++ .enter s :: after) =
      n.run (Step.prog g) after := fun after => Machine.run_append ..
  have hquieted : Quieted n.state.player ↔ m.state.player.stopped = false ∨ Quieted m.state.player := by
    have hentered : Quieted ((m.state.arrive s.env).observe (.entered s.op)).player ↔
        Quieted m.state.player := ⟨fun h => h.of_guards rfl,fun h => h.of_guards rfl⟩
    have hn : n.state = final (ZMediaPlayer.stop.run ((m.state.arrive s.env).observe (.entered s.op))) :=
      congrArg Machine.state (enter_stop g m hs)
    rw [hn,stop_quieted_iff hreturns,hentered]
    rfl
  have howned : Owned n.state := by
    have hborn : Owned w := by
      intro hc
      rw [hw.born.eventHandler]
      exact hw.born.callBack.symm.trans hc
    have hkept := Machine.run_keeps (F := .ofInvariant Owned) (before ++ [.enter s]) ⟨w,[]⟩
      (fun t _ => Owned.prog g t) (by simp) hborn
    rwa [hrun] at hkept
  simp only [hrun,Machine.run_nil]
  rw [← hquieted]
  constructor
  · intro hsilent
    have hnotified : ∀ t : Step, t.op.isNotification = true →
        Appends (fun o => o.speaks = false) n.state (n.step (Step.prog g) (.enter t)).state := by
      intro t ht
      refine hsilent [.enter t] fun u hu => ?_
      obtain rfl : u = t := by simpa using hu
      exact ht
    have hstopped : n.state.player.stopped = true := by
      rw [show n = _ from enter_stop g m hs]
      exact (stop_standing _).stopped rfl
    refine ⟨hstopped,?_,fun hrequested => ?_⟩
    · by_contra hc
      exact callBack_speaks g n (Bool.eq_true_of_not_eq_false hc) howned (hnotified _ rfl)
    · by_contra hplaying
      exact deferred_speaks g n hrequested (Bool.eq_false_of_not_eq_true hplaying) (hnotified _ rfl)
  · intro hq after hafter
    have hrests : ∀ k ∈ n.frames, ∀ u, (k u).Keeps silent u := by
      rw [show n = _ from enter_stop g m hs]
      exact Machine.run_rests (fun t => .bind_lift fun _ => silent_dormant.rests g t.op) before ⟨w,[]⟩
        (by simp)
    have hsilent := Machine.run_keeps (F := silent) after n
      (fun t ht => Prog.Keeps.bind (.lift (silent_enter t)) fun _ =>
        silent_dormant.notification g (hafter t ht)) hrests
    exact (hsilent hq).2

/-- A `SurfaceViewPlayer` whose holder has a surface that is not created yet: the constructor
attaches the view, and the window waits. -/
def builtWaiting : World :=
  final ((ViewClass.surfaceViewPlayer.construct true 0 0).run { env := { surfaceAvailable := true } })

/-- The view rejects the first stop, the second one returns at once, and the surface that a
play request has waited for comes. -/
theorem deferred_start_survives :
    Constructed .zMediaPlayer true builtWaiting ∧
    (∃ v, ZMediaPlayer.stop.run ((((Machine.mk builtWaiting []).run (Step.prog .zMediaPlayer)
      [.enter ⟨.requestPlay true,{}⟩,
        .enter ⟨.stop,{ throws := fun c => decide (c = .setKeepScreenOn) }⟩]).state.arrive
          {}).observe (.entered .stop)) = .ok () v) ∧
    ¬Appends (fun o => o.speaks = false)
      ((Machine.mk builtWaiting []).run (Step.prog .zMediaPlayer)
        ([.enter ⟨.requestPlay true,{}⟩,
          .enter ⟨.stop,{ throws := fun c => decide (c = .setKeepScreenOn) }⟩] ++
            [.enter ⟨.stop,{}⟩])).state
      ((Machine.mk builtWaiting []).run (Step.prog .zMediaPlayer)
        ([.enter ⟨.requestPlay true,{}⟩,
          .enter ⟨.stop,{ throws := fun c => decide (c = .setKeepScreenOn) }⟩] ++
            .enter ⟨.stop,{}⟩ :: [.enter ⟨.onSurfacesCreated,{ window := some .ready }⟩])).state := by
  refine ⟨⟨.surfaceViewPlayer,0,0,{ surfaceAvailable := true },rfl,rfl⟩,⟨_,rfl⟩,?_⟩
  exact deferred_speaks .zMediaPlayer ((Machine.mk builtWaiting []).run (Step.prog .zMediaPlayer)
    [.enter ⟨.requestPlay true,{}⟩,
      .enter ⟨.stop,{ throws := fun c => decide (c = .setKeepScreenOn) }⟩,.enter ⟨.stop,{}⟩])
    (by decide) (by decide)

/-- A play request is waiting for the surface when the client stops the player from inside
`onError`. -/
theorem silent_after_stop_built : Appends (fun o => o.speaks = false)
    ((Machine.mk ViewClass.textureViewPlayer.built []).run (Step.prog .zMediaPlayer)
      ([.enter ⟨.requestPlay true,{}⟩,.enter ⟨.handleSurfaceAvailable,{}⟩,
        .enter ⟨.handleMessage .mediaPlayerEncounteredError,{}⟩] ++ [.enter ⟨.stop,{}⟩])).state
    ((Machine.mk ViewClass.textureViewPlayer.built []).run (Step.prog .zMediaPlayer)
      ([.enter ⟨.requestPlay true,{}⟩,.enter ⟨.handleSurfaceAvailable,{}⟩,
        .enter ⟨.handleMessage .mediaPlayerEncounteredError,{}⟩] ++ .enter ⟨.stop,{}⟩ ::
        [.back,.enter ⟨.onSurfacesCreated,{ window := some .ready }⟩])).state := by
  refine (silent_after_stop_iff .zMediaPlayer true _ (built_constructed .textureViewPlayer) _
    ⟨.stop,{}⟩ rfl ⟨_,rfl⟩).mpr (.inl (by decide)) _ fun t ht => ?_
  simp only [List.mem_cons,Move.enter.injEq,List.not_mem_nil,or_false,reduceCtorEq,false_or] at ht
  obtain rfl := ht
  rfl

end ZenMedia
