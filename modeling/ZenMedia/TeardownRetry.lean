import ZenMedia.StoppedRuns

/-! A teardown that an exception cuts short. `stop` sets `stopped` before its first
step, so the player counts as stopped from then on and no later call takes it down. -/
namespace ZenMedia
open Reentrant

/-- The steps of `stop` that may throw before the media player is released. -/
def Call.isStopStep : Call → Bool
  | removeHandler | removeCallbacksAndMessages | setKeepScreenOn | stop | nativeStop | getVLCVout
  | detachViews | setCallback => true
  | _ => false

lemma mem_stopCalls (p : Player) {k : Call} (hk : k.isStopStep = true) :
    k ∈ p.stopCalls ↔ (k = .setKeepScreenOn → p.playerView = true) := by
  cases hview : p.playerView <;> cases k <;> simp_all [Call.isStopStep,Player.stopCalls]

/-- The teardown gets to every step but the one to a view that is missing. -/
lemma stopCalls_reach {p : Player} {k : Call} (hk : k.isStopStep = true)
    (hscreen : ¬(k = .setKeepScreenOn ∧ p.playerView = false)) : k ∈ p.stopCalls := by
  refine (mem_stopCalls p hk).mpr fun he => ?_
  exact Bool.eq_true_of_not_eq_false fun hview => hscreen ⟨he,hview⟩

/-- The step throws. -/
def Failed (g : Generation) (client : Client) (w : World) (s : Step) : Prop :=
  ∃ e v, ((s.prog g).exec client.react).run w = .error e v

/-- Between `w` and `v` the player is stopped, its views are detached and it is released. -/
def TearsDown (w v : World) : Prop :=
  ∃ new, v.log = w.log ++ new ∧ ∀ c : Call, c.tearsDown = true → ∃ released, .call c released ∈ new

lemma not_tearsDown {w v : World} (h : Appends (fun o => o.releases = false) w v) :
    ¬TearsDown w v := by
  obtain ⟨new,hlog,hnew⟩ := h
  rintro ⟨new',hlog',hcalls⟩
  obtain ⟨released,hmem⟩ := hcalls .release rfl
  have hsame : new = new' := List.append_cancel_left (hlog.symm.trans hlog')
  have := hnew _ (hsame ▸ hmem)
  simp [Obs.releases] at this

/-- Only the view throws, and there is none. -/
structure Viewless (w : World) : Prop where
  throws : ∀ c, c ≠ .setKeepScreenOn → w.env.throws c = false
  playerView : w.player.playerView = false

namespace Viewless

lemma reliable : Reliable Viewless where
  call c hc w hw := ⟨(),w.called c,(call_eq_ok w).mpr ⟨hw.throws c hc,rfl⟩,hw.throws,hw.playerView⟩
  update _ hf := .modify fun w hw => ⟨hw.throws,(hf w.player).trans hw.playerView⟩

lemma releaseScreen : Returns Viewless ZMediaPlayer.releaseScreen := by
  intro w hw
  exact ⟨(),w,by simp [ZMediaPlayer.releaseScreen,hw.playerView],hw⟩

end Viewless

/-- A teardown in which a step throws that it reaches. -/
lemma tearDown_cut {w : World} {k : Call} (hk : k ∈ w.player.stopCalls)
    (hthrow : w.env.throws k = true) :
    ∃ e v, ZMediaPlayer.tearDown.run w = .error e v ∧ Appends (fun o => o.releases = false) w v := by
  have hkeeps := Unreleased.beforeRelease w
  have hrun := run_tearDown w
  cases hbefore : ZMediaPlayer.beforeRelease.run w with
  | ok u v =>
    have hquiet := beforeRelease_quiet hbefore k hk
    simp [hthrow] at hquiet
  | error e v =>
    rw [hbefore] at hkeeps hrun
    exact ⟨e,v,hrun,hkeeps.2⟩

section retry
variable (g : Generation) (client : Client) (w : World) {k : Call} {s : Step}

lemma run_stop_step (hs : s.op.isStop = true) : ((s.prog g).exec client.react).run w =
    if w.player.stopped then .ok () ((w.arrive s.env).observe (.entered s.op))
    else ZMediaPlayer.tearDown.run ((w.arrive s.env).observe (.entered s.op)) :=
  (step_stop g client.react w hs).trans (run_stop _)

/-- A stop fails when the step that throws is one that it reaches. -/
lemma failed_iff (hk : k.isStopStep = true) (hs : s.op.isStop = true)
    (hthrow : ∀ c, s.env.throws c = decide (c = k)) :
    Failed g client w s ↔
      ¬(w.player.stopped = true ∨ k = .setKeepScreenOn ∧ w.player.playerView = false) := by
  have hrun := run_stop_step g client w hs
  unfold Failed
  by_cases hstopped : w.player.stopped = true
  · rw [hrun,if_pos hstopped]
    simp [hstopped]
  · rw [hrun,if_neg hstopped]
    generalize hx : (w.arrive s.env).observe (.entered s.op) = x
    have hview : x.player.playerView = w.player.playerView := by
      rw [← hx]
      rfl
    have hthrows : ∀ c, x.env.throws c = decide (c = k) := by
      rw [← hx]
      exact hthrow
    by_cases hscreen : k = .setKeepScreenOn ∧ w.player.playerView = false
    · obtain ⟨rfl,hnone⟩ := hscreen
      have hviewless : Viewless x := ⟨fun c hc => by simp [hthrows,hc],hview.trans hnone⟩
      obtain ⟨u,v,hv,-⟩ := Viewless.reliable.tearDown Viewless.releaseScreen x hviewless
      simp [hv,hnone]
    · have hreached : k ∈ x.player.stopCalls := stopCalls_reach hk (by rwa [hview])
      obtain ⟨e,v,hv,-⟩ := tearDown_cut hreached (by simp [hthrows])
      exact iff_of_true ⟨e,v,hv⟩ (by simp [hstopped,hscreen])

/-- What a stop has failed to do is done by nothing that follows. -/
theorem failed_for_good (hk : k.isStopStep = true) (hs : s.op.isStop = true)
    (hthrow : ∀ c, s.env.throws c = decide (c = k)) (hfailed : Failed g client w s)
    (later : List Step) : ¬TearsDown w ((w.step g client.react s).run g client.react later) := by
  obtain ⟨hstopped,hscreen⟩ := not_or.mp ((failed_iff g client w hk hs hthrow).mp hfailed)
  let x := (w.arrive s.env).observe (.entered s.op)
  have hreached : k ∈ x.player.stopCalls := stopCalls_reach hk hscreen
  obtain ⟨e,v,hcut,happends⟩ := tearDown_cut hreached (by simp [x,hthrow])
  have hstep : w.step g client.react s = v := by
    rw [World.step,run_stop_step g client w hs,if_neg hstopped,hcut,final_error]
  have hmarked : v.player.stopped = true := by
    have hstanding := stop_standing x
    have hrunning : ¬x.player.stopped = true := hstopped
    rw [run_stop,if_neg hrunning,hcut,final_error] at hstanding
    exact hstanding.stopped rfl
  have hlater : Appends (fun o => o.releases = false) v (v.run g client.react later) := by
    refine (run_stopped g client hmarked later).log.mono fun o ho => ?_
    cases o with
    | call c released => cases c <;> simp_all [Obs.ends,Call.ends,Call.tearsDown,Obs.releases]
    | _ => rfl
  rw [hstep]
  refine not_tearsDown (Appends.trans (.one rfl ?_) (happends.trans hlater))
  rfl

end retry

/-- After the stop `s` has thrown, every later stop in which nothing throws completes
the teardown. -/
def Retriable (g : Generation) (client : Client) (w : World) (s : Step) : Prop :=
  Failed g client w s → ∀ (between : List Step) (retry : Step), retry.op.isStop = true →
    (∀ c, retry.env.throws c = false) →
    TearsDown w (((w.step g client.react s).run g client.react between).step g client.react retry)

theorem retriable_iff (g : Generation) (client : Client) (w : World) (k : Call)
    (hk : k.isStopStep = true) (s : Step) (hs : s.op.isStop = true)
    (hthrow : ∀ c, s.env.throws c = decide (c = k)) :
    Retriable g client w s ↔
      w.player.stopped = true ∨ k = .setKeepScreenOn ∧ w.player.playerView = false := by
  have hfailed := failed_iff g client w hk hs hthrow
  constructor
  · intro h
    by_contra hno
    have hdone := h (hfailed.mpr hno) [] ⟨.stop,{}⟩ rfl fun _ => rfl
    exact failed_for_good g client w hk hs hthrow (hfailed.mpr hno) [⟨.stop,{}⟩] hdone
  · intro h hf
    exact absurd h (hfailed.mp hf)

/-- The view rejects the call: the player is never released. -/
theorem view_rejects_stop :
    ¬Retriable .zMediaPlayer (fun _ => .proceed) ViewClass.surfaceViewPlayer.built
      ⟨.stop,{ throws := fun c => decide (c = .setKeepScreenOn) }⟩ := by
  intro h
  obtain ⟨new,hlog,hcalls⟩ := h ⟨_,_,rfl⟩ [] ⟨.release,{}⟩ rfl fun _ => rfl
  obtain ⟨released,hmem⟩ := hcalls .release rfl
  have hlast := List.mem_append_right ViewClass.surfaceViewPlayer.built.log hmem
  rw [← hlog] at hlast
  revert hlast
  cases released <;> decide

/-- Without a view the call is not made, and the stop goes through. -/
theorem retriable_built :
    Retriable .zMediaPlayer (fun _ => .proceed) ViewClass.audioPlayer.built
      ⟨.stop,{ throws := fun c => decide (c = .setKeepScreenOn) }⟩ :=
  (retriable_iff .zMediaPlayer (fun _ => .proceed) ViewClass.audioPlayer.built .setKeepScreenOn rfl
    ⟨.stop,{ throws := fun c => decide (c = .setKeepScreenOn) }⟩ rfl fun _ => rfl).mpr
      (.inr ⟨rfl,by decide⟩)

end ZenMedia
