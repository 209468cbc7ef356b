import ZenMedia.Interleaving
import ZenMedia.StoppedRuns

/-! The stop of one player by several threads at once. Nothing keeps two of them from
reading `stopped` before either has set it; they then take the player down side by side,
statement by statement in any order. Whoever comes to the native player when it has been
released already gets an exception from libvlc. -/
namespace ZenMedia
open Reentrant Interleaving

def Obs.stopsNative : Obs → Bool
  | call .nativeStop _ => true
  | _ => false

def Obs.releasesNative : Obs → Bool
  | call .nativeRelease _ => true
  | _ => false

/-- The calls of `stop` that go to the native player. -/
def Call.onNative : Call → Bool
  | nativeStop | setVideoTrackEnabled => true
  | _ => false

def World.nativeReleased (w : World) : Bool := w.log.any Obs.releasesNative

/-- libvlc answers a call to a native player that is gone with an `IllegalStateException`. -/
def World.answering (w : World) : World :=
  { w with env := { w.env with
      throws := fun c => w.env.throws c || c.onNative && w.nativeReleased } }

/-- Code against such a libvlc. -/
def answered {α : Type} (m : M α) : M α := fun w =>
  match m.run w.answering with
  | .ok a v => .ok a { v with env := w.env }
  | .error e v => .error e { v with env := w.env }

section answered
variable {α : Type} {m : M α} {w v : World}

lemma run_answered_ok {a : α} (h : m.run w.answering = .ok a v) :
    (answered m).run w = .ok a { v with env := w.env } := by
  rw [EStateM.run,answered,h]

lemma run_answered_error {e : Throwable} (h : m.run w.answering = .error e v) :
    (answered m).run w = .error e { v with env := w.env } := by
  rw [EStateM.run,answered,h]

end answered

/-- The statements of `stop`. -/
inductive StopStatement
  | checkStopped
  | setStopped
  | removeHandler
  | removeCallbacksAndMessages
  | clearCallBack
  | releaseScreen
  | stopMediaPlayer
  | getVLCVout
  | detachViews
  | setCallback
  | releaseMediaPlayer
  deriving DecidableEq, Repr

namespace StopStatement

def body : StopStatement → M Unit
  | checkStopped => pure ()
  | setStopped => update fun p => { p with stopped := true }
  | removeHandler => EventHandler.removeHandler
  | removeCallbacksAndMessages => call .removeCallbacksAndMessages
  | clearCallBack => update fun p => { p with callBack := false }
  | releaseScreen => ZMediaPlayer.releaseScreen
  | stopMediaPlayer => MediaPlayer.stop
  | getVLCVout => call .getVLCVout
  | detachViews => AWindow.detachViews
  | setCallback => call .setCallback
  | releaseMediaPlayer => MediaPlayer.release

/-- The statement, and whether `stop` goes on behind it. -/
def turn : StopStatement → M Bool
  | checkStopped => do pure !(← ZMediaPlayer.isStopped)
  | statement => do
    statement.body
    pure true

def exec (k : StopStatement) : M Bool := answered k.turn

/-- The statements that come to the native player. -/
def onNative : StopStatement → Bool
  | stopMediaPlayer | detachViews => true
  | _ => false

/-- `stop` behind its check. -/
def rest : List StopStatement := [removeHandler,removeCallbacksAndMessages,clearCallBack,
  releaseScreen,stopMediaPlayer,getVLCVout,detachViews,setCallback,releaseMediaPlayer]

/-- What the statement does to a player with at most one reference. -/
def effect : StopStatement → Player → Player
  | setStopped, p => { p with stopped := true }
  | removeHandler, p => { p with eventHandler := { p.eventHandler with registered := false } }
  | clearCallBack, p => { p with callBack := false }
  | stopMediaPlayer, p =>
    { p with mediaPlayer := { p.mediaPlayer with mPlayRequested := false, mPlaying := false } }
  | detachViews, p => { p with mediaPlayer := { p.mediaPlayer with mWindow := .init } }
  | releaseMediaPlayer, p =>
    if p.mediaPlayer.mNativeRefCount = 0 then p
    else { p with
      mediaPlayer := { p.mediaPlayer with mNativeRefCount := 0 }
      refs := match p.mediaPlayer.mMedia with
        | some media => Function.update p.refs media.serial (p.refs media.serial - 1)
        | none => p.refs }
  | checkStopped, p | removeCallbacksAndMessages, p | releaseScreen, p | getVLCVout, p
  | setCallback, p => p

end StopStatement

/-- One thread alone runs `stop`. -/
lemma sequential_stop : sequential StopStatement.turn
    (.checkStopped :: .setStopped :: StopStatement.rest) = ZMediaPlayer.stop := by
  simp only [sequential,StopStatement.turn,StopStatement.rest,StopStatement.body,bind_assoc,
    pure_bind,if_true,ZMediaPlayer.stop,ZMediaPlayer.tearDown]
  congr 1
  funext stopped
  cases stopped <;> simp

lemma stop_settling : Settling StopStatement.effect := by
  constructor
  · intro j k p
    cases hcount : decide (p.mediaPlayer.mNativeRefCount = 0) <;> cases j <;> cases k <;>
      simp_all [StopStatement.effect]
  · intro k p
    cases k <;> try rfl
    by_cases hcount : p.mediaPlayer.mNativeRefCount = 0
    · simp [StopStatement.effect,hcount]
    · simp [StopStatement.effect,hcount]

/-- No call throws but those to a native player that is gone, and the media player has at most
one reference. -/
structure Stoppable (w : World) : Prop where
  faultless : ∀ c : Call, c.onNative = false ∨ w.nativeReleased = false → w.env.throws c = false
  mNativeRefCount : w.player.mediaPlayer.mNativeRefCount ≤ 1

lemma Stoppable.answering {w : World} (hw : Stoppable w) : Stoppable w.answering := by
  refine ⟨fun c hc => ?_,hw.mNativeRefCount⟩
  have hthrows : w.env.throws c = false := hw.faultless c hc
  rcases hc with hc | hc
  · simp [World.answering,hthrows,hc]
  · have hc' : w.nativeReleased = false := hc
    simp [World.answering,hthrows,hc']

lemma answering_of_unreleased {w : World} (hw : w.nativeReleased = false) : w.answering = w := by
  simp [World.answering,hw]

lemma nativeReleased_iff (w : World) :
    w.nativeReleased = true ↔ 0 < w.log.countP Obs.releasesNative := by
  simp [World.nativeReleased,List.countP_pos_iff]

/-! ### What the statements do -/

/-- The native player's releases that are done, and those that the references still stand for. -/
def World.releases (w : World) : ℕ :=
  w.log.countP Obs.releasesNative + w.player.mediaPlayer.mNativeRefCount

/-- The outcome of a statement. -/
structure Carried (k : StopStatement) (w v : World) : Prop where
  player : v.player = k.effect w.player
  env : v.env = w.env
  stops : v.log.countP Obs.stopsNative =
    w.log.countP Obs.stopsNative + if k = .stopMediaPlayer then 1 else 0
  releases : v.releases = w.releases

/-- A statement returns, or throws what libvlc throws when the native player is gone; either way
its outcome is the same. -/
def Answers (k : StopStatement) (w : World) : Prop :=
  ∃ v, Carried k w v ∧ (k.body.run w = .ok () v ∨ k.onNative = true ∧ w.nativeReleased = true ∧
    ∃ c : Call, c.onNative = true ∧ k.body.run w = .error (.thrownBy c) v)

section statements
variable {w : World} (hw : Stoppable w)
include hw

lemma run_call_stoppable {c : Call} (hc : c.onNative = false) : (call c).run w = .ok () (w.called c) :=
  (call_eq_ok w).mpr ⟨hw.faultless c (.inl hc),rfl⟩

lemma nativeReleased_of_throws {c : Call} (hc : w.env.throws c = true) : w.nativeReleased = true := by
  by_contra hnot
  rw [hw.faultless c (.inr (Bool.eq_false_of_not_eq_true hnot))] at hc
  cases hc

omit hw in
lemma carried_call {k : StopStatement} {c : Call} (hk : k.effect w.player = w.player)
    (hne : k ≠ .stopMediaPlayer) (hstop : Obs.stopsNative (.call c true) = false)
    (hrelease : Obs.releasesNative (.call c true) = false) : Carried k w (w.called c) := by
  constructor
  · exact hk.symm
  · rfl
  · cases c <;> simp_all [Obs.stopsNative]
  · cases c <;> simp_all [World.releases,Obs.releasesNative]

lemma removeHandler_answers : Answers .removeHandler w := by
  let v := (w.called .removeHandler).update fun p =>
    { p with eventHandler := { p.eventHandler with registered := false } }
  have hrun : EventHandler.removeHandler.run w = .ok () v :=
    bind_eq_ok.mpr ⟨(),_,run_call_stoppable hw rfl,rfl⟩
  refine ⟨v,⟨rfl,rfl,?_,?_⟩,.inl hrun⟩
  · simp [v,Obs.stopsNative]
  · simp [v,World.releases,Obs.releasesNative]

lemma releaseScreen_answers : Answers .releaseScreen w := by
  cases hview : w.player.playerView with
  | false =>
    refine ⟨w,⟨rfl,rfl,by simp,rfl⟩,.inl ?_⟩
    simp [StopStatement.body,ZMediaPlayer.releaseScreen,hview]
  | true =>
    refine ⟨_,carried_call (c := .setKeepScreenOn) rfl (by simp) rfl rfl,.inl ?_⟩
    simp [StopStatement.body,ZMediaPlayer.releaseScreen,hview,
      run_call_stoppable hw (c := .setKeepScreenOn) rfl]

lemma stopMediaPlayer_answers : Answers .stopMediaPlayer w := by
  have hstop : w.env.throws .stop = false := hw.faultless _ (.inl rfl)
  let u := (w.called .stop).update fun p =>
    { p with mediaPlayer := { p.mediaPlayer with mPlayRequested := false, mPlaying := false } }
  have hrun : MediaPlayer.stop.run w = (call .nativeStop).run u := by
    simp [MediaPlayer.stop,run_call,hstop]
    rfl
  refine ⟨u.called .nativeStop,⟨rfl,rfl,?_,?_⟩,?_⟩
  · simp [u,Obs.stopsNative,List.countP_append]
  · simp [u,World.releases,Obs.releasesNative]
  · rw [StopStatement.body,hrun,run_call]
    cases hthrows : w.env.throws .nativeStop with
    | false => exact .inl (if_neg (by simp [u,hthrows]))
    | true =>
      refine .inr ⟨rfl,nativeReleased_of_throws hw hthrows,.nativeStop,rfl,?_⟩
      exact if_pos hthrows

lemma detachViews_answers : Answers .detachViews w := by
  have hdetach : w.env.throws .detachViews = false := hw.faultless _ (.inl rfl)
  by_cases hinit : w.player.mediaPlayer.mWindow = .init
  · refine ⟨w.called .detachViews,carried_call ?_ (by simp) rfl rfl,.inl ?_⟩
    · rw [StopStatement.effect,← hinit]
    · simp [StopStatement.body,AWindow.detachViews,run_call_stoppable hw (c := .detachViews) rfl,hinit]
  · let v := (w.called .detachViews).update fun p =>
      { p with mediaPlayer := { p.mediaPlayer with mWindow := .init } }
    have hv : Carried .detachViews w v := by
      refine ⟨rfl,rfl,?_,?_⟩
      · simp [v,Obs.stopsNative]
      · simp [v,World.releases,Obs.releasesNative]
    cases hplaying : w.player.mediaPlayer.mPlaying with
    | false =>
      refine ⟨v,hv,.inl ?_⟩
      simp [StopStatement.body,AWindow.detachViews,MediaPlayer.onSurfacesDestroyed,run_call,hdetach,hinit,
        hplaying,v]
    | true =>
      have hrun : AWindow.detachViews.run w = (call .setVideoTrackEnabled).run v := by
        simp [AWindow.detachViews,MediaPlayer.onSurfacesDestroyed,run_call,hdetach,hinit,hplaying,v]
      refine ⟨v.called .setVideoTrackEnabled,⟨hv.player,hv.env,?_,?_⟩,?_⟩
      · simp [v,Obs.stopsNative]
      · simp [v,World.releases,Obs.releasesNative]
      · rw [StopStatement.body,hrun,run_call]
        cases hthrows : w.env.throws .setVideoTrackEnabled with
        | false => exact .inl (if_neg (by simp [v,hthrows]))
        | true =>
          refine .inr ⟨rfl,nativeReleased_of_throws hw hthrows,.setVideoTrackEnabled,rfl,?_⟩
          exact if_pos hthrows

lemma releaseMediaPlayer_answers : Answers .releaseMediaPlayer w := by
  have hquiet : ∀ c : Call, c.onNative = false → w.env.throws c = false :=
    fun c hc => hw.faultless c (.inl hc)
  by_cases hzero : w.player.mediaPlayer.mNativeRefCount = 0
  · refine ⟨w.called .release,carried_call ?_ (by simp) rfl rfl,.inl ?_⟩
    · rw [StopStatement.effect,if_pos hzero]
    · simp [StopStatement.body,MediaPlayer.release,run_call_stoppable hw (c := .release) rfl,
        MediaPlayer.isReleased,hzero]
  · have hone : w.player.mediaPlayer.mNativeRefCount = 1 := by
      have hle := hw.mNativeRefCount
      omega
    let u := (w.called .release).update fun p =>
      { p with mediaPlayer := { p.mediaPlayer with mNativeRefCount := p.mediaPlayer.mNativeRefCount - 1 } }
    cases hmedia : w.player.mediaPlayer.mMedia with
    | none =>
      refine ⟨u.called .nativeRelease,⟨?_,rfl,?_,?_⟩,.inl ?_⟩
      · simp [StopStatement.effect,hone,hmedia,u]
      · simp [Obs.stopsNative,u]
      · simp [World.releases,Obs.releasesNative,hone,u]
      · simp [StopStatement.body,MediaPlayer.release,MediaPlayer.onReleaseNative,
          MediaPlayer.releaseMedia,run_call,hquiet .release rfl,hquiet .nativeRelease rfl,
          MediaPlayer.isReleased,hone,hmedia,u]
    | some media =>
      let v := (u.called (.releaseMedia media)).update fun p =>
        { p with refs := Function.update p.refs media.serial (p.refs media.serial - 1) }
      refine ⟨v.called .nativeRelease,⟨?_,rfl,?_,?_⟩,.inl ?_⟩
      · simp [StopStatement.effect,hone,hmedia,u,v]
      · simp [Obs.stopsNative,u,v]
      · simp [World.releases,Obs.releasesNative,hone,u,v]
      · simp [StopStatement.body,MediaPlayer.release,MediaPlayer.onReleaseNative,
          MediaPlayer.releaseMedia,Media.release,run_call,hquiet .release rfl,
          hquiet .nativeRelease rfl,hquiet (.releaseMedia media) rfl,MediaPlayer.isReleased,hone,hmedia,u,v]

lemma body_answers (k : StopStatement) : Answers k w := by
  have hcall : ∀ {k : StopStatement} {c : Call}, c.onNative = false → k.body = call c →
      Carried k w (w.called c) → Answers k w := by
    intro k c hc hbody hcarried
    refine ⟨_,hcarried,.inl ?_⟩
    rw [hbody]
    exact run_call_stoppable hw hc
  cases k with
  | checkStopped => exact ⟨w,⟨rfl,rfl,by simp,rfl⟩,.inl rfl⟩
  | setStopped => exact ⟨w.update _,⟨rfl,rfl,by simp,rfl⟩,.inl rfl⟩
  | removeHandler => exact removeHandler_answers hw
  | removeCallbacksAndMessages => exact hcall rfl rfl (carried_call rfl (by simp) rfl rfl)
  | clearCallBack => exact ⟨w.update _,⟨rfl,rfl,by simp,rfl⟩,.inl rfl⟩
  | releaseScreen => exact releaseScreen_answers hw
  | stopMediaPlayer => exact stopMediaPlayer_answers hw
  | getVLCVout => exact hcall rfl rfl (carried_call rfl (by simp) rfl rfl)
  | detachViews => exact detachViews_answers hw
  | setCallback => exact hcall rfl rfl (carried_call rfl (by simp) rfl rfl)
  | releaseMediaPlayer => exact releaseMediaPlayer_answers hw

end statements

/-! ### Against a libvlc that throws -/

namespace Carried
variable {k : StopStatement} {w v : World}

lemma mNativeRefCount (h : Carried k w v) : v.player.mediaPlayer.mNativeRefCount =
    if k = .releaseMediaPlayer then 0 else w.player.mediaPlayer.mNativeRefCount := by
  rw [h.player]
  cases k <;> simp only [StopStatement.effect,reduceCtorEq,if_true,if_false]
  split
  · assumption
  · rfl

/-- Only the statement that releases the media player releases the native one. -/
lemma nativeReleased_of_ne (h : Carried k w v) (hk : k ≠ .releaseMediaPlayer) :
    v.nativeReleased = w.nativeReleased := by
  have hreleases := h.releases
  have hcount := h.mNativeRefCount
  rw [if_neg hk] at hcount
  unfold World.releases at hreleases
  rw [Bool.eq_iff_iff,nativeReleased_iff,nativeReleased_iff]
  omega

/-- What is gone stays gone. -/
lemma nativeReleased (h : Carried k w v) (hw : w.nativeReleased = true) : v.nativeReleased = true := by
  have hreleases := h.releases
  have hcount := h.mNativeRefCount
  unfold World.releases at hreleases
  rw [nativeReleased_iff] at hw ⊢
  split at hcount <;> omega

lemma stoppable (h : Carried k w v) (hw : Stoppable w) : Stoppable v := by
  constructor
  · intro c hc
    rw [h.env]
    refine hw.faultless c (hc.imp id fun hnot => Bool.eq_false_of_not_eq_true fun hgone => ?_)
    rw [h.nativeReleased hgone] at hnot
    cases hnot
  · have hle := hw.mNativeRefCount
    rw [h.mNativeRefCount]
    split
    · exact Nat.zero_le 1
    · exact hle

lemma stopped (h : Carried k w v) (hw : w.player.stopped = true) : v.player.stopped = true := by
  rw [h.player]
  cases k <;> simp only [StopStatement.effect] <;> try exact hw
  split
  · exact hw
  · exact hw

end Carried

lemma rest_behind {k : StopStatement} (hk : k ∈ .setStopped :: StopStatement.rest) :
    k ≠ .checkStopped := by
  rintro rfl
  simp [StopStatement.rest] at hk

section exec
variable {k : StopStatement} {w : World} (hk : k ∈ .setStopped :: StopStatement.rest)
  (hw : Stoppable w)
include hk hw

/-- Behind the check a statement does what its body does and goes on, or throws. -/
lemma exec_answers : ∃ v, Carried k w v ∧ (k.exec.run w = .ok true v ∨ k.onNative = true ∧
    w.nativeReleased = true ∧ ∃ c : Call, c.onNative = true ∧ k.exec.run w = .error (.thrownBy c) v) := by
  obtain ⟨x,hx,hrun⟩ := body_answers hw.answering k
  have hne := rest_behind hk
  have hturn : k.turn = (do k.body; pure true) := by
    cases k <;> first | rfl | exact absurd rfl hne
  refine ⟨{ x with env := w.env },⟨hx.player,rfl,hx.stops,hx.releases⟩,hrun.imp ?_ ?_⟩
  · intro hok
    apply run_answered_ok
    rw [hturn,EStateM.run_bind,hok]
    rfl
  · rintro ⟨hnative,hgone,c,hc,herror⟩
    refine ⟨hnative,hgone,c,hc,run_answered_error ?_⟩
    rw [hturn,EStateM.run_bind,herror]

lemma exec_carries : Carried k w (final (k.exec.run w)) := by
  obtain ⟨v,hcarried,hrun | ⟨-,-,c,-,hrun⟩⟩ := exec_answers hk hw
  · rwa [hrun]
  · rwa [hrun]

lemma exec_carries_ok {v : World} (hrun : k.exec.run w = .ok true v) : Carried k w v := by
  have h := exec_carries hk hw
  rwa [hrun] at h

/-- Who throws has come to the native player too late. -/
lemma exec_throws {e : Throwable} {v : World} (hrun : k.exec.run w = .error e v) :
    k.onNative = true ∧ ∃ c : Call, c.onNative = true ∧ e = .thrownBy c := by
  obtain ⟨u,-,hok | ⟨hnative,-,c,hc,herror⟩⟩ := exec_answers hk hw
  · rw [hrun] at hok
    cases hok
  · obtain ⟨rfl,-⟩ := EStateM.Result.error.inj (hrun.symm.trans herror)
    exact ⟨hnative,c,hc,rfl⟩

end exec

/-- Before the native player is gone libvlc does nothing of its own. -/
lemma turn_of_unreleased {k : StopStatement} {w : World} (hw : Stoppable w)
    (hkept : w.nativeReleased = false) : k.turn.run w = k.exec.run w := by
  have hsame := answering_of_unreleased hkept
  by_cases hk : k = .checkStopped
  · subst hk
    rfl
  · have hturn : k.turn = (do k.body; pure true) := by
      cases k <;> first | rfl | exact absurd rfl hk
    obtain ⟨v,hcarried,hrun | ⟨-,hgone,-⟩⟩ := body_answers hw k
    · have hturned : k.turn.run w = .ok true v := by
        rw [hturn,EStateM.run_bind,hrun]
        rfl
      rw [hturned,StopStatement.exec,run_answered_ok (v := v) (by rw [hsame,hturned]),← hcarried.env]
    · rw [hkept] at hgone
      cases hgone

lemma rest_suffix {k : StopStatement} {next : List StopStatement}
    (h : k :: next <:+ .setStopped :: StopStatement.rest) :
    (k = .releaseMediaPlayer → next = []) ∧
      (k.onNative = true → (next.map fun k => if k = .stopMediaPlayer then 1 else 0).sum = 0) := by
  simp only [StopStatement.rest,List.suffix_cons_iff,List.cons.injEq,List.suffix_nil,
    List.cons_ne_nil,or_false] at h
  rcases h with h | h | h | h | h | h | h | h | h | h <;> obtain ⟨rfl,rfl⟩ := h <;>
    simp [StopStatement.onNative]

/-- `stopped` is the latch of `stop`. -/
lemma stop_latch : Latch StopStatement.exec Stoppable (fun w => w.player.stopped)
    World.nativeReleased .checkStopped .setStopped StopStatement.rest where
  guard w _ := rfl
  sets w hw := by
    obtain ⟨v,hv,hrun | ⟨hnative,-⟩⟩ := exec_answers List.mem_cons_self hw
    · exact ⟨v,hrun,by rw [hv.player]; rfl⟩
    · cases hnative
  go k hk w hw := by
    obtain ⟨v,hv,hrun⟩ := exec_answers hk hw
    refine ⟨v,hv.stoppable hw,hv.stopped,hrun.imp_right ?_⟩
    rintro ⟨-,hgone,c,-,herror⟩
    exact ⟨hgone,_,herror⟩
  last k next hks w v hw hrun hgone := by
    have hcarried := exec_carries_ok (hks.mem List.mem_cons_self) hw hrun
    by_cases hk : k = .releaseMediaPlayer
    · exact .inr ((rest_suffix hks).1 hk)
    · exact .inl ((hcarried.nativeReleased_of_ne hk).symm.trans hgone)

/-! ### Stopping from several threads -/

lemma unstopped_steady {g : Generation} {w : World} {steps : List Step}
    (hs : ∀ s ∈ steps, s.op.isStop = false) : steady.rel w (w.run g recording steps) := by
  induction steps using List.reverseRecOn with
  | nil => exact steady.refl w
  | append_singleton steps s ih =>
    rw [run_concat]
    have hbefore := ih fun t ht => hs t (List.mem_append_left _ ht)
    exact steady.trans hbefore (step_steady g _ (hs s (by simp)))

/-- The native player of a player that no one has stopped is there. -/
lemma unstopped_kept {g : Generation} {callback : Bool} {w : World} (hw : Born callback w)
    {steps : List Step} (hs : ∀ s ∈ steps, s.op.isStop = false) :
    (w.run g recording steps).nativeReleased = false := by
  obtain ⟨new,hlog,hnew⟩ := (unstopped_steady (g := g) (w := w) hs).log
  unfold World.nativeReleased
  rw [hlog,List.any_append,Bool.or_eq_false_iff,List.any_eq_false,List.any_eq_false]
  constructor
  · intro o ho hreleases
    have hordinary := hw.log o ho
    cases o with
    | call c _ => cases c <;> simp_all [Obs.isOrdinaryCall,Call.ends,Obs.releasesNative]
    | _ => cases hreleases
  · intro o ho hreleases
    have hends := hnew o ho
    cases o with
    | call c _ => cases c <;> simp_all [Obs.ends,Call.ends,Call.tearsDown,Obs.releasesNative]
    | _ => cases hreleases

lemma releaseMediaPlayer_count (p : Player) :
    (StopStatement.releaseMediaPlayer.effect p).mediaPlayer.mNativeRefCount = 0 := by
  by_cases hzero : p.mediaPlayer.mNativeRefCount = 0
  · rw [StopStatement.effect,if_pos hzero,hzero]
  · rw [StopStatement.effect,if_neg hzero]

/-- The threads of `schedule` stop the player, a statement at a time. -/
def stopTogether {ι : Type} [DecidableEq ι] (w : World) (schedule : List ι) :
    Pool Throwable World ι StopStatement :=
  (Pool.start w (.checkStopped :: .setStopped :: StopStatement.rest)).run StopStatement.exec schedule

end ZenMedia
