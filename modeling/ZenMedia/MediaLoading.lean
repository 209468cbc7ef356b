import ZenMedia.FaultlessRuns

/-! What `play(hasVideo)` achieves: a media for `hasVideo` is loaded, and the native
player is started or the request waits in the media player for its surfaces. What
the other commands do afterwards loses neither. -/
namespace ZenMedia
open Reentrant

namespace Obs

def setsMedia : Obs → Bool
  | call (.nativeSetMedia _) _ => true
  | _ => false

def plays : Obs → Bool
  | call .nativePlay _ => true
  | _ => false

end Obs

/-- The media player will play at the first `onSurfacesCreated` that finds the
surfaces not waiting. -/
structure Deferred (w : World) : Prop where
  mPlaying : w.player.mediaPlayer.mPlaying = false
  mPlayRequested : w.player.mediaPlayer.mPlayRequested = true

/-- No media is set, and either the native player is started or a deferred request
stays deferred. -/
def keepsRequest : Frame World where
  rel w v := ∃ new, v.log = w.log ++ new ∧ (∀ o ∈ new, o.setsMedia = false) ∧
    ((∃ o ∈ new, o.plays) ∨ (Deferred w → Deferred v))
  refl w := ⟨[],by simp,by simp,.inr fun h => h⟩
  trans := by
    rintro s t u ⟨xs,hx,hxs,hxp⟩ ⟨ys,hy,hys,hyp⟩
    refine ⟨xs ++ ys,by simp [hy,hx],?_,?_⟩
    · intro o ho
      rcases List.mem_append.mp ho with ho | ho
      · exact hxs o ho
      · exact hys o ho
    · rcases hxp with ⟨o,ho,hp⟩ | hxd
      · exact .inl ⟨o,by simp [ho],hp⟩
      · rcases hyp with ⟨o,ho,hp⟩ | hyd
        · exact .inl ⟨o,by simp [ho],hp⟩
        · exact .inr fun h => hyd (hxd h)

namespace KeepsRequest

lemma call {c : Call} (hc : (Obs.call c true).setsMedia = false) :
    Maintains keepsRequest (call c) := by
  intro w
  rw [final_run_call]
  refine ⟨[_],rfl,fun o ho => ?_,.inr fun h => ⟨h.mPlaying,h.mPlayRequested⟩⟩
  rw [List.mem_singleton.mp ho]
  cases c <;> simp_all [Obs.setsMedia]

lemma update {f : Player → Player}
    (h : ∀ p, (f p).mediaPlayer.mPlaying = p.mediaPlayer.mPlaying ∧
      (p.mediaPlayer.mPlayRequested = true → (f p).mediaPlayer.mPlayRequested = true)) :
    Maintains keepsRequest (update f) := by
  intro w
  obtain ⟨hplaying,hrequested⟩ := h w.player
  exact ⟨[],by simp,by simp,.inr fun hd => ⟨hplaying.trans hd.mPlaying,hrequested hd.mPlayRequested⟩⟩

lemma startNative_log (w : World) : (final (MediaPlayer.startNative.run w)).log =
    w.log ++ [.call .nativePlay w.player.mediaPlayer.isReleased] := by
  cases h : w.env.throws .nativePlay <;> simp [MediaPlayer.startNative,run_call,h] <;> rfl

lemma startNative : Maintains keepsRequest MediaPlayer.startNative := fun w =>
  ⟨_,startNative_log w,by simp [Obs.setsMedia],.inl ⟨_,List.mem_singleton_self _,rfl⟩⟩

lemma commands : Commands keepsRequest where
  call c hc := call (by cases c <;> first | rfl | exact absurd hc (by simp [Call.isPlain]))
  update _ hf := update fun p => ⟨(hf p).mPlaying,fun hr => (hf p).mPlayRequested.trans hr⟩
  request := update fun _ => ⟨rfl,fun _ => rfl⟩
  startNative := startNative

end KeepsRequest

/-! ### What `play(hasVideo)` achieves -/

/-- The last media set is one for `hasVideo`; since then `Q` of the log. -/
def Holding (hasVideo : Bool) (Q : List Obs → Prop) (log : List Obs) : Prop :=
  ∃ pre media released post, log = pre ++ .call (.nativeSetMedia (some media)) released :: post ∧
    (∀ o ∈ post, o.setsMedia = false) ∧ media.hasVideo = hasVideo ∧ Q post

/-- The last media set is one for `hasVideo`, and the native player has been started
since or will be. -/
def Loaded (hasVideo : Bool) (w : World) : Prop :=
  Holding hasVideo (fun post => (∃ o ∈ post, o.plays) ∨ Deferred w) w.log

lemma Holding.append {hasVideo : Bool} {Q R : List Obs → Prop} {log new : List Obs}
    (h : Holding hasVideo Q log) (hnew : ∀ o ∈ new, o.setsMedia = false)
    (hQ : ∀ post, Q post → R (post ++ new)) : Holding hasVideo R (log ++ new) := by
  obtain ⟨pre,media,released,post,rfl,hpost,hvideo,hq⟩ := h
  refine ⟨pre,media,released,post ++ new,by simp,?_,hvideo,hQ post hq⟩
  intro o ho
  rcases List.mem_append.mp ho with ho | ho
  · exact hpost o ho
  · exact hnew o ho

lemma Loaded.keeps {hasVideo : Bool} {w v : World} (h : Loaded hasVideo w)
    (hk : keepsRequest.rel w v) : Loaded hasVideo v := by
  obtain ⟨new,hlog,hnew,hlatch⟩ := hk
  unfold Loaded
  rw [hlog]
  refine Holding.append h hnew ?_
  rintro post (⟨o,ho,hp⟩ | hd)
  · exact .inl ⟨o,by simp [ho],hp⟩
  · rcases hlatch with ⟨o,ho,hp⟩ | hkeep
    · exact .inl ⟨o,by simp [ho],hp⟩
    · exact .inr (hkeep hd)

/-- The media player's own media is an older one than the next to be created. -/
def Stocked (w : World) : Prop :=
  ∀ media, w.player.mediaPlayer.mMedia = some media → media.serial < w.player.created

lemma openMedia_ok {w v : World} {hasVideo : Bool} {media : Media}
    (h : (ZMediaPlayer.openMedia hasVideo).run w = .ok media v) :
    media.hasVideo = hasVideo ∧ media.serial = w.player.created ∧
      v.player.mediaPlayer = w.player.mediaPlayer ∧ v.player.created = w.player.created + 1 ∧
      v.player.refs media.serial = 1 ∧ v.env = w.env := by
  simp only [ZMediaPlayer.openMedia,ZMediaPlayer.newMedia,bind_eq_ok,call_eq_ok,run_player,run_update,
    EStateM.Result.ok.injEq] at h
  obtain ⟨m,_,⟨-,_,⟨-,rfl⟩,_,_,⟨rfl,rfl⟩,-,_,⟨-,rfl⟩,hm⟩,-,_,⟨-,rfl⟩,h⟩ := h
  obtain ⟨rfl,rfl⟩ := EStateM.Result.ok.inj hm
  cases hasVideo with
  | true =>
    obtain ⟨rfl,rfl⟩ := EStateM.Result.ok.inj h
    simp [Media.hasVideo]
  | false =>
    simp only [bind_eq_ok,call_eq_ok,Bool.false_eq_true,if_false] at h
    obtain ⟨-,_,⟨-,rfl⟩,h⟩ := h
    obtain ⟨rfl,rfl⟩ := EStateM.Result.ok.inj h
    simp [Media.hasVideo]

/-- The media is alive and not the one that `setMedia` gives back. -/
structure Settable (media : Media) (w : World) : Prop where
  faultless : Faultless w
  alive : 0 < w.player.refs media.serial
  other : ∀ old, w.player.mediaPlayer.mMedia = some old → old.serial ≠ media.serial
  created : media.serial < w.player.created

lemma Settable.releaseMedia (media : Media) :
    Returns (Settable media) MediaPlayer.releaseMedia := by
  intro w hw
  cases hm : w.player.mediaPlayer.mMedia with
  | none => exact ⟨(),w,by simp [MediaPlayer.releaseMedia,hm],hw⟩
  | some old =>
    let given := (w.called (.releaseMedia old)).update fun p =>
      { p with refs := Function.update p.refs old.serial (p.refs old.serial - 1) }
    have hrun : MediaPlayer.releaseMedia.run w = .ok () given := by
      simp [MediaPlayer.releaseMedia,Media.release,run_call,hm,hw.faultless _,given]
    have hne : media.serial ≠ old.serial := (hw.other old hm).symm
    refine ⟨(),given,hrun,hw.faultless,?_,hw.other,hw.created⟩
    simpa [given,Function.update_of_ne hne] using hw.alive

lemma Settable.acquire (media : Media) : Returns (Settable media) (MediaPlayer.acquire media) := by
  intro w hw
  have halive : w.player.refs media.serial ≠ 0 := by
    have := hw.alive
    omega
  let held := (w.called (.retainMedia media)).update fun p =>
    if 0 < p.refs media.serial then
      { p with refs := Function.update p.refs media.serial (p.refs media.serial + 1) }
    else p
  have hrun : (MediaPlayer.acquire media).run w =
      .ok () (held.called .setDefaultMediaPlayerOptions) := by
    have hretain : w.env.throws (.retainMedia media) = false := hw.faultless _
    have hf : held.env.throws .setDefaultMediaPlayerOptions = false := hw.faultless _
    simp [MediaPlayer.acquire,Media.isReleased,Media.retain,run_call,halive,held,hretain] at hf ⊢
    simp [hf]
  refine ⟨(),_,hrun,hw.faultless,?_,?_,?_⟩
  · simp [held,hw.alive]
  · simpa [held,hw.alive] using hw.other
  · simpa [held,hw.alive] using hw.created

lemma setMedia_run {media : Media} {w : World} (hw : Settable media w) :
    ∃ v, (MediaPlayer.setMedia (some media)).run w = .ok () v ∧ Faultless v ∧
      v.player.mediaPlayer.mMedia = some media ∧ media.serial < v.player.created ∧
      Holding media.hasVideo (fun _ => True) v.log := by
  obtain ⟨_,w1,h1,hw1⟩ := Settable.releaseMedia media (w.called .setMedia)
    ⟨hw.faultless,hw.alive,hw.other,hw.created⟩
  obtain ⟨_,w2,h2,hw2⟩ := Settable.acquire media w1 hw1
  let loaded := (w2.update fun p => { p with
    mediaPlayer := { p.mediaPlayer with mMedia := some media } }).called (.nativeSetMedia (some media))
  refine ⟨loaded.update fun p => { p with mediaPlayer := { p.mediaPlayer with position := 0 } },
    ?_,hw2.faultless,rfl,hw2.created,?_⟩
  · refine bind_eq_ok.mpr ⟨(),_,(call_eq_ok w).mpr ⟨hw.faultless _,rfl⟩,?_⟩
    refine bind_eq_ok.mpr ⟨(),w1,h1,bind_eq_ok.mpr ⟨(),w2,h2,?_⟩⟩
    refine bind_eq_ok.mpr ⟨(),_,rfl,bind_eq_ok.mpr ⟨(),loaded,?_,rfl⟩⟩
    exact (call_eq_ok _).mpr ⟨hw2.faultless _,rfl⟩
  · exact ⟨w2.log,media,_,[],rfl,by simp,rfl,trivial⟩

lemma Stocked.call (c : Call) : Maintains (.ofInvariant Stocked) (call c) := by
  intro w hw
  rw [final_run_call]
  exact hw

lemma Stocked.update {f : Player → Player}
    (h : ∀ p, (f p).mediaPlayer.mMedia = p.mediaPlayer.mMedia ∧ (f p).created = p.created) :
    Maintains (.ofInvariant Stocked) (update f) := by
  intro w hw media hm
  obtain ⟨hmedia,hcreated⟩ := h w.player
  have hlt := hw media (hmedia ▸ hm)
  change media.serial < (f w.player).created
  omega

lemma Stocked.commands : Commands (.ofInvariant Stocked) where
  call c _ := call c
  update _ hf := update fun p => ⟨(hf p).mMedia,(hf p).created⟩
  request := update fun _ => ⟨rfl,rfl⟩
  startNative := .bind (update fun _ => ⟨rfl,rfl⟩) fun _ => call _

/-- The media player after the request of `MediaPlayer.play` has been noted. -/
def World.requested (w : World) : World := (w.called .play).update fun p =>
  { p with mediaPlayer := { p.mediaPlayer with mPlayRequested := true } }

lemma run_play {w : World} (hf : Faultless w) : MediaPlayer.play.run w =
    if w.player.mediaPlayer.mPlaying then MediaPlayer.startNative.run (w.called .play)
    else if w.player.mediaPlayer.mWindow = .attached then .ok () w.requested
    else MediaPlayer.startNative.run w.requested := by
  by_cases hp : w.player.mediaPlayer.mPlaying = true
  · simp [MediaPlayer.play,run_call,hf _,hp]
  · by_cases hwait : w.player.mediaPlayer.mWindow = .attached <;>
      simp [MediaPlayer.play,MediaPlayer.areSurfacesWaiting,run_call,hf _,hp,hwait,World.requested]

/-- `MediaPlayer.play` starts the native player or defers the request. -/
lemma play_latches {w : World} (hf : Faultless w) :
    ∃ v new, MediaPlayer.play.run w = .ok () v ∧ v.log = w.log ++ new ∧
      (∀ o ∈ new, o.setsMedia = false) ∧ ((∃ o ∈ new, o.plays) ∨ Deferred v) := by
  have hstarted : ∀ u : World, Faultless u →
      u.log = w.log ++ [.call .play w.player.mediaPlayer.isReleased] →
      MediaPlayer.play.run w = MediaPlayer.startNative.run u →
      ∃ v new, MediaPlayer.play.run w = .ok () v ∧ v.log = w.log ++ new ∧
        (∀ o ∈ new, o.setsMedia = false) ∧ ((∃ o ∈ new, o.plays) ∨ Deferred v) := by
    intro u hu hlog hrun
    obtain ⟨_,v,hv,-⟩ := Faultless.startNative u hu
    have hvlog := KeepsRequest.startNative_log u
    rw [hv,final_ok,hlog,List.append_assoc] at hvlog
    exact ⟨v,_,hrun.trans hv,hvlog,by simp [Obs.setsMedia],
      .inl ⟨_,List.mem_append_right _ (List.mem_singleton_self _),rfl⟩⟩
  have hrun := run_play hf
  by_cases hp : w.player.mediaPlayer.mPlaying = true
  · rw [if_pos hp] at hrun
    exact hstarted (w.called .play) hf rfl hrun
  · rw [if_neg hp] at hrun
    by_cases hwait : w.player.mediaPlayer.mWindow = .attached
    · rw [if_pos hwait] at hrun
      exact ⟨_,_,hrun,rfl,by simp [Obs.setsMedia],.inr ⟨Bool.eq_false_of_not_eq_true hp,rfl⟩⟩
    · rw [if_neg hwait] at hrun
      exact hstarted w.requested hf rfl hrun

/-- `play(hasVideo)` loads a media for `hasVideo` and gets it started or deferred. -/
theorem play_loads {w : World} (hf : Faultless w) (hs : Stocked w) (hasVideo : Bool) :
    ∃ v, (ZMediaPlayer.play hasVideo).run w = .ok () v ∧ Loaded hasVideo v ∧ Stocked v := by
  obtain ⟨media,w1,hopen,hf1⟩ := Faultless.openMedia hasVideo (w.observe (.start hasVideo)) hf
  obtain ⟨hvideo,hserial,hplayer,hcreated,hrefs,-⟩ := openMedia_ok hopen
  have hset : Settable media w1 := by
    refine ⟨hf1,by omega,fun old hold => ?_,by omega⟩
    have hlt := hs old (by rw [hplayer] at hold; exact hold)
    have : (w.observe (.start hasVideo)).player.created = w.player.created := rfl
    omega
  obtain ⟨w2,hset,hf2,hmedia,hstock,hhold⟩ := setMedia_run hset
  have hs2 : Stocked w2 := by
    intro m hm
    rw [hmedia] at hm
    exact Option.some.inj hm ▸ hstock
  obtain ⟨_,w3,hrelease,hf3⟩ := Faultless.mediaRelease media w2 hf2
  obtain ⟨_,w4,htitle,hf4⟩ := Faultless.setVideoTitleDisplay w3 hf3
  obtain ⟨v,new,hplay,hlog,hnew,hlatch⟩ := play_latches hf4
  have hrun : (ZMediaPlayer.play hasVideo).run w = .ok () v :=
    bind_eq_ok.mpr ⟨(),_,rfl,bind_eq_ok.mpr ⟨media,w1,hopen,bind_eq_ok.mpr ⟨(),w2,hset,
      bind_eq_ok.mpr ⟨(),w3,hrelease,bind_eq_ok.mpr ⟨(),w4,htitle,hplay⟩⟩⟩⟩⟩
  have hk : keepsRequest.rel w2 w4 := by
    have h3 := KeepsRequest.commands.release media w2
    have h4 := KeepsRequest.commands.setVideoTitleDisplay w3
    rw [hrelease] at h3
    rw [htitle] at h4
    exact keepsRequest.trans h3 h4
  have hs4 : Stocked v := by
    have h3 := Stocked.commands.release media w2 hs2
    rw [hrelease] at h3
    have h4 := Stocked.commands.setVideoTitleDisplay w3 h3
    rw [htitle] at h4
    have h5 := Stocked.commands.play w4 h4
    rw [hplay] at h5
    exact h5
  refine ⟨v,hrun,?_,hs4⟩
  obtain ⟨more,hlog4,hmore,-⟩ := hk
  rw [hvideo] at hhold
  unfold Loaded
  rw [hlog,hlog4,List.append_assoc]
  refine hhold.append (fun o ho => ?_) fun post _ => ?_
  · rcases List.mem_append.mp ho with ho | ho
    · exact hmore o ho
    · exact hnew o ho
  · rcases hlatch with ⟨o,ho,hp⟩ | hd
    · exact .inl ⟨o,by simp [ho],hp⟩
    · exact .inr hd

end ZenMedia
