import ZenMedia.ReferenceCount
import ZenMedia.StoppedRuns
import ZenMedia.SurfaceRestart

/-! Who keeps the media alive. A start creates a media, hands it to the media player,
which gives back its old one and retains the new one, and gives back its own reference;
an exception on the way leaves a reference behind that nobody gives back. -/
namespace ZenMedia
open Reentrant ReferenceCount TraceLaws

namespace Obs

def takes (i : ℕ) : Obs → Bool
  | call (.retainMedia media) _ => media.serial = i
  | _ => false

def givesBack (i : ℕ) : Obs → Bool
  | call (.releaseMedia media) _ => media.serial = i
  | _ => false

end Obs

/-- The references of the media, the creation of each counted as the first. -/
def World.ledger (w : World) : Ledger ℕ where
  count := w.player.refs
  acquired i := (if i < w.player.created then 1 else 0) + w.log.countP (Obs.takes i)
  released i := w.log.countP (Obs.givesBack i)

/-- The media that the media player holds. -/
def World.holder (w : World) : Option ℕ := w.player.mediaPlayer.mMedia.map Media.serial

/-- The calls that may throw here. -/
def Call.failable : Call → Bool
  | parse | addOption _ | setDefaultMediaPlayerOptions | nativeSetMedia _ => true
  | setVideoTitleDisplay | nativeSetVideoTitleDisplay | nativePlay => true
  | _ => false

/-- Nothing else throws. -/
def Limited (env : Env) : Prop := ∀ c, env.throws c = true → c.failable = true

lemma Limited.quiet {env : Env} (h : Limited env) {c : Call} (hc : c.failable = false) :
    env.throws c = false := by
  cases hthrows : env.throws c with
  | false => rfl
  | true => rw [h c hthrows] at hc; cases hc

def Call.movesMedia : Call → Bool
  | retainMedia _ | releaseMedia _ => true
  | _ => false

/-- No reference of a media is taken or given back, and no media created or set. -/
def keepsMedia : Frame World where
  rel w v := v.ledger = w.ledger ∧ v.holder = w.holder ∧ v.player.created = w.player.created ∧
    v.env = w.env
  refl _ := ⟨rfl,rfl,rfl,rfl⟩
  trans h k := ⟨k.1.trans h.1,k.2.1.trans h.2.1,k.2.2.1.trans h.2.2.1,k.2.2.2.trans h.2.2.2⟩

namespace KeepsMedia

/-- An entry of the log that counts nothing. -/
lemma observe_rel (w : World) {o : Obs} (ho : ∀ i, o.takes i = false ∧ o.givesBack i = false) :
    keepsMedia.rel w (w.observe o) := by
  refine ⟨?_,rfl,rfl,rfl⟩
  unfold World.ledger
  simp only [World.observe_player,World.observe_log,List.countP_append,List.countP_singleton,
    (ho _).1,(ho _).2,Bool.false_eq_true,if_false,Nat.add_zero]
  rfl

lemma called_rel (w : World) {c : Call} (hc : c.movesMedia = false) :
    keepsMedia.rel w (w.called c) := by
  apply observe_rel
  intro i
  cases c <;> simp_all [Call.movesMedia,Obs.takes,Obs.givesBack]

lemma call {c : Call} (hc : c.movesMedia = false) : Maintains keepsMedia (call c) := by
  intro w
  rw [final_run_call]
  exact called_rel w hc

lemma ledger_update (w : World) {f : Player → Player} (hrefs : (f w.player).refs = w.player.refs)
    (hcreated : (f w.player).created = w.player.created) : (w.update f).ledger = w.ledger := by
  change (⟨(f w.player).refs,fun i => (if i < (f w.player).created then 1 else 0) + _,_⟩ : Ledger ℕ) = _
  rw [hrefs,hcreated]
  rfl

lemma update {f : Player → Player} (h : ∀ p, (f p).refs = p.refs ∧ (f p).created = p.created ∧
    (f p).mediaPlayer.mMedia = p.mediaPlayer.mMedia) : Maintains keepsMedia (update f) := by
  intro w
  obtain ⟨hrefs,hcreated,hmedia⟩ := h w.player
  exact ⟨ledger_update w hrefs hcreated,congrArg (Option.map Media.serial) hmedia,hcreated,rfl⟩

lemma startNative : Maintains keepsMedia MediaPlayer.startNative :=
  .bind (update fun _ => ⟨rfl,rfl,rfl⟩) fun _ => call rfl

lemma mediaPlayer_play : Maintains keepsMedia MediaPlayer.play := by
  refine (Maintains.sequential _).mediaPlayer_play (call rfl) ?_ startNative
  exact update fun _ => ⟨rfl,rfl,rfl⟩

lemma attachView : Maintains keepsMedia ZMediaPlayer.attachView := by
  refine (Maintains.sequential _).attachView (call rfl) (call rfl) (call rfl) ?_ ?_
  · exact fun s => update fun _ => ⟨rfl,rfl,rfl⟩
  · exact (Maintains.sequential _).onSurfacesCreated mediaPlayer_play

/-- The end of a start. -/
lemma showAndPlay : Maintains keepsMedia (do MediaPlayer.setVideoTitleDisplay; MediaPlayer.play) :=
  .bind (.bind (call rfl) fun _ => call rfl) fun _ => mediaPlayer_play

/-- An exception is reported at most. -/
lemma reported_rel (r : EStateM.Result Throwable World Unit) :
    keepsMedia.rel (final r) (reported recording r) := by
  cases r with
  | ok a v => exact keepsMedia.refl v
  | error e v =>
    have hrun := run_notifyIfSet recording v (pure (.onError e))
    rw [reported,BaseViewPlayer.reportError,hrun]
    cases v.player.callBack with
    | false => exact keepsMedia.refl v
    | true => exact observe_rel v fun _ => ⟨rfl,rfl⟩

end KeepsMedia

/-! ### What happens to the references -/

/-- The world after a media has been given back. -/
def World.gaveBack (w : World) (m : Media) : World := (w.called (.releaseMedia m)).update fun p =>
  { p with refs := Function.update p.refs m.serial (p.refs m.serial - 1) }

/-- The world after a media has been retained. -/
def World.took (w : World) (m : Media) : World := (w.called (.retainMedia m)).update fun p =>
  if 0 < p.refs m.serial then
    { p with refs := Function.update p.refs m.serial (p.refs m.serial + 1) }
  else p

/-- The world after a media has been created. -/
def World.opened (w : World) : World := (w.called .newMedia).update fun p =>
  { p with created := w.player.created + 1, refs := Function.update p.refs w.player.created 1 }

section ledgers
variable (w : World) (m : Media)

lemma gaveBack_ledger : (w.gaveBack m).ledger = w.ledger.release m.serial := by
  unfold World.gaveBack World.ledger Ledger.release
  congr 1
  · funext i
    simp [Obs.takes]
    rfl
  · funext i
    by_cases hi : i = m.serial
    · subst hi
      simp [Obs.givesBack]
    · simp [Obs.givesBack,hi,Ne.symm hi]

lemma took_ledger : (w.took m).ledger = w.ledger.retain m.serial := by
  unfold World.took World.ledger Ledger.retain
  by_cases hpos : 0 < w.player.refs m.serial
  · congr 1
    · simp [hpos]
    · funext i
      by_cases hi : i = m.serial
      · subst hi
        simp [Obs.takes,hpos]
        omega
      · simp [Obs.takes,hi,Ne.symm hi,hpos]
    · funext i
      simp [Obs.givesBack]
  · congr 1
    · simp [hpos]
    · funext i
      by_cases hi : i = m.serial
      · subst hi
        simp [Obs.takes,hpos]
        omega
      · simp [Obs.takes,hi,Ne.symm hi,hpos]
    · funext i
      simp [Obs.givesBack]

lemma opened_ledger : w.opened.ledger = w.ledger.create w.player.created := by
  unfold World.opened World.ledger Ledger.create
  congr 1
  · funext i
    by_cases hi : i = w.player.created
    · subst hi
      simp [Obs.takes]
      omega
    · have hlt : i < w.player.created + 1 ↔ i < w.player.created := by omega
      simp [Obs.takes,hi,hlt]
  · funext i
    simp [Obs.givesBack]

end ledgers

/-! ### The stages of a start -/

/-- The media that the next start creates. -/
def nextMedia (serial : ℕ) (hasVideo : Bool) : Media :=
  ⟨serial,if hasVideo then [] else [":no-video"]⟩

/-- A call throws before the media is handed over. -/
def Env.failsToOpen (env : Env) (hasVideo : Bool) : Bool :=
  env.throws .parse || (!hasVideo && env.throws (.addOption ":no-video"))

/-- A call throws while the media is handed over. -/
def Env.failsToSet (env : Env) (media : Media) : Bool :=
  env.throws .setDefaultMediaPlayerOptions || env.throws (.nativeSetMedia (some media))

/-- A start of media `serial` leaves a reference behind. -/
def Env.leaks (env : Env) (serial : ℕ) (hasVideo : Bool) : Bool :=
  env.failsToOpen hasVideo || env.failsToSet (nextMedia serial hasVideo)

section stages
variable {w : World} (hl : Limited w.env)
include hl

lemma run_quiet {c : Call} (hc : c.failable = false) : (call c).run w = .ok () (w.called c) :=
  (call_eq_ok w).mpr ⟨hl.quiet hc,rfl⟩

lemma run_mediaRelease (m : Media) : m.release.run w = .ok () (w.gaveBack m) :=
  bind_eq_ok.mpr ⟨(),_,run_quiet hl rfl,rfl⟩

lemma run_releaseMedia : ∃ v, MediaPlayer.releaseMedia.run w = .ok () v ∧
    v.ledger = w.ledger.letGo w.holder ∧ v.holder = w.holder ∧
    v.player.created = w.player.created ∧ v.env = w.env := by
  cases hm : w.player.mediaPlayer.mMedia with
  | none =>
    have hrun : MediaPlayer.releaseMedia.run w = .ok () w := by simp [MediaPlayer.releaseMedia,hm]
    refine ⟨w,hrun,?_,rfl,rfl,rfl⟩
    rw [World.holder,hm]
    rfl
  | some old =>
    have hrun : MediaPlayer.releaseMedia.run w = old.release.run w := by
      simp [MediaPlayer.releaseMedia,hm]
    refine ⟨w.gaveBack old,hrun.trans (run_mediaRelease hl old),?_,rfl,rfl,rfl⟩
    rw [gaveBack_ledger,World.holder,hm]
    rfl

/-- The new media is created whatever happens. -/
lemma run_openMedia (hasVideo : Bool) : ∃ v, keepsMedia.rel w.opened v ∧
    (w.env.failsToOpen hasVideo = false →
      (ZMediaPlayer.openMedia hasVideo).run w = .ok (nextMedia w.player.created hasVideo) v) ∧
    (w.env.failsToOpen hasVideo = true →
      ∃ e, (ZMediaPlayer.openMedia hasVideo).run w = .error e v) := by
  have hnew : ZMediaPlayer.newMedia.run w = .ok ⟨w.player.created,[]⟩ w.opened :=
    bind_eq_ok.mpr ⟨(),_,run_quiet hl rfl,rfl⟩
  have henv : w.opened.env = w.env := rfl
  have hparse := KeepsMedia.called_rel w.opened (c := .parse) rfl
  have hoption := KeepsMedia.called_rel (w.opened.called .parse) (c := .addOption ":no-video") rfl
  by_cases hp : w.env.throws .parse = true
  · refine ⟨_,hparse,?_,?_⟩
    · intro h
      simp [Env.failsToOpen,hp] at h
    · intro _
      exact ⟨.thrownBy .parse,by simp [ZMediaPlayer.openMedia,hnew,run_call,henv,hp]⟩
  · cases hasVideo with
    | true =>
      refine ⟨_,hparse,?_,?_⟩
      · intro _
        simp [ZMediaPlayer.openMedia,hnew,run_call,henv,hp,nextMedia]
      · intro h
        simp [Env.failsToOpen,hp] at h
    | false =>
      refine ⟨_,keepsMedia.trans hparse hoption,?_,?_⟩
      · intro h
        have ho : w.env.throws (.addOption ":no-video") = false := by
          simpa [Env.failsToOpen,hp] using h
        simp [ZMediaPlayer.openMedia,hnew,run_call,henv,hp,ho,nextMedia]
      · intro h
        have ho : w.env.throws (.addOption ":no-video") = true := by
          simpa [Env.failsToOpen,hp] using h
        exact ⟨.thrownBy (.addOption ":no-video"),
          by simp [ZMediaPlayer.openMedia,hnew,run_call,henv,hp,ho]⟩

/-- The old media is given back and the new one retained whatever happens then. -/
lemma run_setMedia (media : Media) (halive : 0 < (w.ledger.letGo w.holder).count media.serial) :
    ∃ v, v.ledger = (w.ledger.letGo w.holder).retain media.serial ∧
      v.player.created = w.player.created ∧ v.env = w.env ∧
      (w.env.failsToSet media = false → v.holder = some media.serial ∧
        (MediaPlayer.setMedia (some media)).run w = .ok () v) ∧
      (w.env.failsToSet media = true → ∃ e, (MediaPlayer.setMedia (some media)).run w = .error e v) := by
  have hcalled := KeepsMedia.called_rel w (c := .setMedia) rfl
  obtain ⟨u,hu,hledger,-,hcreated,henv⟩ := run_releaseMedia (w := w.called .setMedia) hl
  rw [hcalled.1,hcalled.2.1] at hledger
  have hl' : Limited u.env := by rw [henv]; exact hl
  have hcount : u.player.refs media.serial ≠ 0 := by
    have hsame : u.ledger.count media.serial = u.player.refs media.serial := rfl
    rw [← hsame,hledger]
    omega
  have hretain : media.retain.run u = .ok () (u.took media) :=
    bind_eq_ok.mpr ⟨(),_,run_quiet hl' rfl,rfl⟩
  have htook : (u.took media).player.created = u.player.created := by
    unfold World.took
    rw [World.update_player,World.called_player]
    split <;> rfl
  have hdefaults := KeepsMedia.called_rel (u.took media) (c := .setDefaultMediaPlayerOptions) rfl
  let held := ((u.took media).called .setDefaultMediaPlayerOptions).update fun p =>
    { p with mediaPlayer := { p.mediaPlayer with mMedia := some media } }
  have hheld : held.ledger = (u.took media).ledger :=
    (KeepsMedia.ledger_update _ rfl rfl).trans hdefaults.1
  have hnative := KeepsMedia.called_rel held (c := .nativeSetMedia (some media)) rfl
  have hledger' : (u.took media).ledger = (w.ledger.letGo w.holder).retain media.serial := by
    rw [took_ledger,hledger]
  have hacquire : (MediaPlayer.acquire media).run u =
      (call .setDefaultMediaPlayerOptions).run (u.took media) := by
    have hreleased : media.isReleased.run u = .ok false u := by
      simp [Media.isReleased,hcount]
    simp [MediaPlayer.acquire,hreleased,hretain]
  have htookenv : (u.took media).env = w.env := henv
  have hset : MediaPlayer.setMedia (some media) = (do
      call .setMedia
      MediaPlayer.releaseMedia
      MediaPlayer.acquire media
      updateMediaPlayer fun p => { p with mMedia := some media }
      call (.nativeSetMedia (some media))
      updateMediaPlayer fun p => { p with position := 0 }) := rfl
  have hcall := run_quiet hl (c := .setMedia) rfl
  by_cases hd : w.env.throws .setDefaultMediaPlayerOptions = true
  · refine ⟨_,hdefaults.1.trans hledger',htook.trans hcreated,henv,?_,?_⟩
    · intro h
      simp [Env.failsToSet,hd] at h
    · intro _
      exact ⟨.thrownBy .setDefaultMediaPlayerOptions,by
        simp [hset,hcall,hu,hacquire,run_call,htookenv,hd]⟩
  · by_cases hn : w.env.throws (.nativeSetMedia (some media)) = true
    · refine ⟨_,hnative.1.trans (hheld.trans hledger'),htook.trans hcreated,henv,?_,?_⟩
      · intro h
        simp [Env.failsToSet,hn] at h
      · intro _
        exact ⟨.thrownBy (.nativeSetMedia (some media)),by
          simp [hset,hcall,hu,hacquire,run_call,htookenv,hd,hn,held]⟩
    · have hlast := KeepsMedia.ledger_update (held.called (.nativeSetMedia (some media)))
        (f := fun p => { p with mediaPlayer := { p.mediaPlayer with position := 0 } }) rfl rfl
      refine ⟨_,hlast.trans (hnative.1.trans (hheld.trans hledger')),htook.trans hcreated,henv,?_,?_⟩
      · intro _
        exact ⟨rfl,by simp [hset,hcall,hu,hacquire,run_call,htookenv,hd,hn,held]⟩
      · intro h
        simp [Env.failsToSet,hd,hn] at h

end stages

/-- The media player alone holds its media, and nobody holds another one. -/
structure Sound (w : World) : Prop where
  owned : w.ledger.OwnedBy w.holder
  known : ∀ i, w.holder = some i → i < w.player.created
  balanced : w.ledger.Balanced

namespace Sound
variable {w : World}

lemma transfer {v : World} (h : Sound w) (hledger : v.ledger = w.ledger)
    (hholder : v.holder = w.holder) (hcreated : v.player.created = w.player.created) : Sound v := by
  constructor
  · rw [hledger,hholder]
    exact h.owned
  · rw [hholder,hcreated]
    exact h.known
  · rw [hledger]
    exact h.balanced

lemma keeps {v : World} (h : Sound w) (hv : keepsMedia.rel w v) : Sound v :=
  h.transfer hv.1 hv.2.1 hv.2.2.1

lemma fresh (h : Sound w) : w.holder ≠ some w.player.created := by
  intro hw
  exact absurd (h.known _ hw) (lt_irrefl _)

lemma created (h : Sound w) : (w.ledger.create w.player.created).Balanced :=
  h.balanced.create (h.owned.count_other h.fresh)

/-- The new media while it is handed over. -/
lemma handed (h : Sound w) :
    ((w.ledger.create w.player.created).letGo w.holder).OwnedBy (some w.player.created) :=
  h.owned.create_letGo h.fresh

lemma handed_balanced (h : Sound w) :
    ((w.ledger.create w.player.created).letGo w.holder).Balanced := by
  refine h.created.letGo fun i hi => ?_
  have hne : i ≠ w.player.created := fun hc => h.fresh (hi.trans (congrArg some hc))
  have howned := h.owned
  rw [hi] at howned
  rw [Ledger.create_count,if_neg hne,howned.count_owned]
  exact one_pos

end Sound

section starts
variable {w : World} (hl : Limited w.env) (hasVideo : Bool)
include hl

/-- The world in which a start hands its new media over. -/
lemma play_opens : ∃ v, v.ledger = w.ledger.create w.player.created ∧ v.holder = w.holder ∧
    v.player.created = w.player.created + 1 ∧ v.env = w.env ∧
    (w.env.failsToOpen hasVideo = true → final ((ZMediaPlayer.play hasVideo).run w) = v) ∧
    (w.env.failsToOpen hasVideo = false → (ZMediaPlayer.play hasVideo).run w = (do
      MediaPlayer.setMedia (some (nextMedia w.player.created hasVideo))
      (nextMedia w.player.created hasVideo).release
      MediaPlayer.setVideoTitleDisplay
      MediaPlayer.play).run v) := by
  let x := w.observe (.start hasVideo)
  have hx : keepsMedia.rel w x := KeepsMedia.observe_rel w fun _ => ⟨rfl,rfl⟩
  have hstart : (ZMediaPlayer.play hasVideo).run w = (do
      let media ← ZMediaPlayer.openMedia hasVideo
      MediaPlayer.setMedia (some media)
      media.release
      MediaPlayer.setVideoTitleDisplay
      MediaPlayer.play).run x := rfl
  obtain ⟨v,hv,hok,herror⟩ := run_openMedia (w := x) hl hasVideo
  refine ⟨v,?_,hv.2.1,hv.2.2.1,hv.2.2.2,?_,?_⟩
  · rw [hv.1,opened_ledger,hx.1]
    rfl
  · intro hfails
    obtain ⟨e,he⟩ := herror hfails
    simp [hstart,he]
  · intro hopens
    simp [hstart,hok hopens]
    rfl

/-- The world in which the new media has two references, its creator's among them. -/
lemma play_hands (h : Sound w) (hopens : w.env.failsToOpen hasVideo = false) : ∃ v,
    v.ledger = ((w.ledger.create w.player.created).letGo w.holder).retain w.player.created ∧
    v.player.created = w.player.created + 1 ∧
    (w.env.failsToSet (nextMedia w.player.created hasVideo) = true →
      final ((ZMediaPlayer.play hasVideo).run w) = v) ∧
    (w.env.failsToSet (nextMedia w.player.created hasVideo) = false →
      v.holder = some w.player.created ∧ keepsMedia.rel
        (v.gaveBack (nextMedia w.player.created hasVideo))
        (final ((ZMediaPlayer.play hasVideo).run w))) := by
  obtain ⟨u,hledger,hholder,hcreated,henv,-,hstart⟩ := play_opens hl hasVideo
  have hl' : Limited u.env := by rw [henv]; exact hl
  have halive : 0 < (u.ledger.letGo u.holder).count w.player.created := by
    rw [hledger,hholder,h.handed.count_owned]
    exact one_pos
  obtain ⟨v,hv,hvcreated,hvenv,hok,herror⟩ := run_setMedia hl' (nextMedia w.player.created hasVideo) halive
  rw [hledger,hholder] at hv
  rw [henv] at hok herror
  have hvlimited : Limited v.env := by rw [hvenv]; exact hl'
  refine ⟨v,hv,hvcreated.trans hcreated,?_,?_⟩
  · intro hfails
    obtain ⟨e,he⟩ := herror hfails
    simp [hstart hopens,he]
  · intro hsets
    obtain ⟨hheld,hrun⟩ := hok hsets
    have hrelease := run_mediaRelease hvlimited (nextMedia w.player.created hasVideo)
    refine ⟨hheld,?_⟩
    simp only [hstart hopens,EStateM.run_bind,hrun,hrelease]
    exact KeepsMedia.showAndPlay _

end starts

/-- A start that leaves no reference behind. -/
lemma play_sound {w : World} (h : Sound w) (hl : Limited w.env) {hasVideo : Bool}
    (hleak : w.env.leaks w.player.created hasVideo = false) :
    Sound (final ((ZMediaPlayer.play hasVideo).run w)) := by
  obtain ⟨hopens,hsets⟩ := Bool.or_eq_false_iff.mp hleak
  obtain ⟨v,hledger,hcreated,-,hend⟩ := play_hands hl hasVideo h hopens
  obtain ⟨hholder,hrel⟩ := hend hsets
  have hback : (v.gaveBack (nextMedia w.player.created hasVideo)).ledger =
      (((w.ledger.create w.player.created).letGo w.holder).retain w.player.created).release
        w.player.created := by
    rw [gaveBack_ledger,hledger]
    rfl
  have hsound : Sound (v.gaveBack (nextMedia w.player.created hasVideo)) := by
    have howner : (v.gaveBack (nextMedia w.player.created hasVideo)).holder =
        some w.player.created := hholder
    have hcount := h.handed.count_owned
    constructor
    · rw [hback,howner]
      exact h.handed.retain_release
    · intro i hi
      have hlt : w.player.created < v.player.created := by omega
      rw [howner] at hi
      rwa [← Option.some.inj hi]
    · rw [hback]
      apply Ledger.Balanced.release
      · exact h.handed_balanced.retain (by omega)
      · rw [Ledger.retain_count,if_pos rfl,hcount]
        decide
  exact hsound.keeps hrel

/-- What an exception leaves behind: the new media has a reference that nobody holds. -/
lemma play_leaks {w : World} (h : Sound w) (hl : Limited w.env) {hasVideo : Bool}
    (hleak : w.env.leaks w.player.created hasVideo = true) :
    ¬(final ((ZMediaPlayer.play hasVideo).run w)).ledger.OwnedBy
      (final ((ZMediaPlayer.play hasVideo).run w)).holder := by
  intro howned
  have hone := howned.count_le_one w.player.created
  by_cases hopens : w.env.failsToOpen hasVideo = true
  · obtain ⟨v,hledger,hholder,-,-,hfinal,-⟩ := play_opens hl hasVideo
    rw [hfinal hopens,hledger,hholder] at howned
    have hcount := howned.count_other h.fresh
    rw [Ledger.create_count,if_pos rfl] at hcount
    exact absurd hcount one_ne_zero
  · have hopens' : w.env.failsToOpen hasVideo = false := by simpa using hopens
    have hsets : w.env.failsToSet (nextMedia w.player.created hasVideo) = true := by
      simpa [Env.leaks,hopens'] using hleak
    obtain ⟨v,hledger,-,hfinal,-⟩ := play_hands hl hasVideo h hopens'
    rw [hfinal hsets,hledger,Ledger.retain_count,if_pos rfl,h.handed.count_owned] at hone
    exact absurd hone (by decide)

/-! ### Steps -/

/-- The surface is there at once, and the play that it sets off throws. -/
def Step.breaksOff (s : Step) (w : World) : Bool :=
  s.env.window.getD w.player.mediaPlayer.mWindow = .init && s.env.surfaceReady &&
    !w.player.mediaPlayer.mPlaying && w.player.mediaPlayer.mPlayRequested && s.env.throws .nativePlay

lemma onSurfacesCreated_ok_iff {w : World} (hl : Limited w.env)
    (hready : w.player.mediaPlayer.mWindow = .ready) :
    (∃ v, MediaPlayer.onSurfacesCreated.run w = .ok () v) ↔ (!w.player.mediaPlayer.mPlaying &&
      w.player.mediaPlayer.mPlayRequested && w.env.throws .nativePlay) = false := by
  have hplay : w.env.throws .play = false := hl.quiet rfl
  cases hp : w.player.mediaPlayer.mPlaying with
  | true => simp [MediaPlayer.onSurfacesCreated,hp]
  | false =>
    cases hq : w.player.mediaPlayer.mPlayRequested with
    | false => simp [MediaPlayer.onSurfacesCreated,hq]
    | true =>
      cases ht : w.env.throws .nativePlay <;>
        simp [MediaPlayer.onSurfacesCreated,MediaPlayer.play,MediaPlayer.startNative,
          MediaPlayer.areSurfacesWaiting,run_call,hp,hq,ht,hplay,hready]

lemma run_attachView {w : World} (hl : Limited w.env) : ZMediaPlayer.attachView.run w =
    if w.player.mediaPlayer.mWindow = .init then
      AWindow.attachViews.run ((w.called .getVLCVout).called .areViewsAttached)
    else .ok () ((w.called .getVLCVout).called .areViewsAttached) := by
  have hvout := run_quiet hl (c := .getVLCVout) rfl
  have hviews := run_quiet (w := w.called .getVLCVout) hl (c := .areViewsAttached) rfl
  by_cases hinit : w.player.mediaPlayer.mWindow = .init <;>
    simp [ZMediaPlayer.attachView,AWindow.areViewsAttached,hvout,hviews,hinit]

lemma attachView_ok_iff {w : World} {s : Step} (hl : Limited s.env) :
    (∃ v, ZMediaPlayer.attachView.run (s.attaching w) = .ok () v) ↔ s.breaksOff w = false := by
  let x := ((s.attaching w).called .getVLCVout).called .areViewsAttached
  have hwindow : (s.attaching w).player.mediaPlayer.mWindow =
      s.env.window.getD w.player.mediaPlayer.mWindow := rfl
  have hattach := run_quiet (w := x) hl (c := .attachViews) rfl
  rw [run_attachView (w := s.attaching w) hl,hwindow]
  unfold Step.breaksOff
  by_cases hinit : s.env.window.getD w.player.mediaPlayer.mWindow = .init
  · rw [if_pos hinit,decide_eq_true hinit]
    change (∃ v, AWindow.attachViews.run x = .ok () v) ↔ _
    cases hsurface : s.env.surfaceReady with
    | false =>
      have henv : x.env.surfaceReady = false := hsurface
      simp [AWindow.attachViews,hattach,henv]
    | true =>
      have henv : x.env.surfaceReady = true := hsurface
      let y := ((x.called .attachViews).update fun p =>
        { p with mediaPlayer := { p.mediaPlayer with mWindow := .attached } }).update fun p =>
        { p with mediaPlayer := { p.mediaPlayer with mWindow := .ready } }
      have hrun : AWindow.attachViews.run x = MediaPlayer.onSurfacesCreated.run y := by
        simp [AWindow.attachViews,hattach,henv,y]
      rw [hrun,onSurfacesCreated_ok_iff (w := y) hl rfl,Bool.true_and,Bool.true_and]
      rfl
  · rw [if_neg hinit,decide_eq_false hinit]
    simp

/-- The steps that leave a reference behind. -/
inductive Leaks (w : World) : Step → Prop
  | asked (hasVideo : Bool) (env : Env) : w.player.attached = true →
      env.leaks w.player.created hasVideo = true → Leaks w ⟨.requestPlay hasVideo,env⟩
  | surface (env : Env) : w.player.requestPlay = true →
      Step.breaksOff ⟨.handleSurfaceAvailable,env⟩ w = false →
      env.leaks w.player.created w.player.hasVideo = true → Leaks w ⟨.handleSurfaceAvailable,env⟩

lemma leaks_requestPlay {w : World} {hasVideo : Bool} {env : Env} :
    Leaks w ⟨.requestPlay hasVideo,env⟩ ↔
      w.player.attached = true ∧ env.leaks w.player.created hasVideo = true := by
  constructor
  · intro h
    cases h with
    | asked _ _ hattached hleak => exact ⟨hattached,hleak⟩
  · rintro ⟨hattached,hleak⟩
    exact .asked hasVideo env hattached hleak

lemma leaks_handleSurfaceAvailable {w : World} {env : Env} :
    Leaks w ⟨.handleSurfaceAvailable,env⟩ ↔ w.player.requestPlay = true ∧
      Step.breaksOff ⟨.handleSurfaceAvailable,env⟩ w = false ∧
      env.leaks w.player.created w.player.hasVideo = true := by
  constructor
  · intro h
    cases h with
    | surface _ hrequest hok hleak => exact ⟨hrequest,hok,hleak⟩
  · rintro ⟨hrequest,hok,hleak⟩
    exact .surface env hrequest hok hleak

def Op.playsMedia : Op → Bool
  | requestPlay _ | handleSurfaceAvailable => true
  | _ => false

/-- A start whose exception, if any, is reported. -/
lemma reported_sound {w : World} (h : Sound w) (hl : Limited w.env) (hasVideo : Bool) :
    let v := reported recording ((ZMediaPlayer.play hasVideo).run w)
    (w.env.leaks w.player.created hasVideo = false → Sound v) ∧
    (w.env.leaks w.player.created hasVideo = true → ¬v.ledger.OwnedBy v.holder) := by
  intro v
  have hrel := KeepsMedia.reported_rel ((ZMediaPlayer.play hasVideo).run w)
  constructor
  · intro hleak
    exact (play_sound h hl hleak).keeps hrel
  · intro hleak
    rw [hrel.1,hrel.2.1]
    exact play_leaks h hl hleak

lemma Sound.enter {w : World} (h : Sound w) (s : Step) :
    Sound ((w.arrive s.env).observe (.entered s.op)) := by
  have harrive : Sound (w.arrive s.env) := h.transfer rfl rfl rfl
  exact harrive.keeps (KeepsMedia.observe_rel _ fun _ => ⟨rfl,rfl⟩)

section steps
variable (g : Generation) {w : World} (h : Sound w) {env : Env} (hl : Limited env)
include h hl

lemma requestPlay_sound (hasVideo : Bool) :
    let v := w.step g recording ⟨.requestPlay hasVideo,env⟩
    (¬Leaks w ⟨.requestPlay hasVideo,env⟩ → Sound v) ∧
    (Leaks w ⟨.requestPlay hasVideo,env⟩ → ¬v.ledger.OwnedBy v.holder) := by
  intro v
  let x := (w.arrive env).observe (.entered (.requestPlay hasVideo))
  have hx : Sound (x.asked hasVideo) :=
    (h.enter ⟨.requestPlay hasVideo,env⟩).keeps (KeepsMedia.update (fun _ => ⟨rfl,rfl,rfl⟩) x)
  have hstep : v = _ := step_requestPlay recording w g hasVideo env
  rw [hstep,leaks_requestPlay]
  cases w.player.attached with
  | false => exact ⟨fun _ => hx,fun hleak => absurd hleak.1 Bool.false_ne_true⟩
  | true =>
    obtain ⟨hsound,hleaks⟩ := reported_sound hx hl hasVideo
    constructor
    · intro hno
      apply hsound
      exact Bool.eq_false_of_not_eq_true fun hleak => hno ⟨rfl,hleak⟩
    · intro hleak
      exact hleaks hleak.2

lemma handleSurfaceAvailable_sound (hrun : w.player.stopped = false) :
    let v := w.step g recording ⟨.handleSurfaceAvailable,env⟩
    (¬Leaks w ⟨.handleSurfaceAvailable,env⟩ → Sound v) ∧
    (Leaks w ⟨.handleSurfaceAvailable,env⟩ → ¬v.ledger.OwnedBy v.holder) := by
  intro v
  let s : Step := ⟨.handleSurfaceAvailable,env⟩
  let x := (w.arrive env).observe (.entered .handleSurfaceAvailable)
  have hx : Sound (s.attaching w) :=
    (h.enter s).keeps (KeepsMedia.update (fun _ => ⟨rfl,rfl,rfl⟩) x)
  have hstep : v = reported recording (BaseViewPlayer.attachAndPlay.run x) :=
    (step_handleSurfaceAvailable recording w g env).trans (if_neg (by simp [hrun]))
  have hview := KeepsMedia.attachView (s.attaching w)
  have hcontrol := (Untouched.commands.attachView (s.attaching w)).1
  have hattach := run_attachAndPlay x
  have hiff := attachView_ok_iff (w := w) (s := s) hl
  rw [show x.marked = s.attaching w from rfl] at hattach
  rw [hstep,hattach,leaks_handleSurfaceAvailable]
  cases hattaches : ZMediaPlayer.attachView.run (s.attaching w) with
  | error e u =>
    rw [hattaches] at hview hiff
    constructor
    · intro _
      exact (hx.keeps hview).keeps (KeepsMedia.reported_rel (.error e u))
    · rintro ⟨-,hok,-⟩
      obtain ⟨u',hu'⟩ := hiff.mpr hok
      simp at hu'
  | ok a u =>
    rw [hattaches] at hview hiff hcontrol
    rw [final_ok] at hview hcontrol
    have hu : Sound u := hx.keeps hview
    have hreq : u.player.requestPlay = w.player.requestPlay := congrArg Control.requestPlay hcontrol
    have hvideo : u.player.hasVideo = w.player.hasVideo := congrArg Control.hasVideo hcontrol
    have hcreated : u.player.created = w.player.created := hview.2.2.1
    have henv : u.env = env := hview.2.2.2
    have hok : s.breaksOff w = false := hiff.mp ⟨u,rfl⟩
    dsimp only
    rw [hreq]
    cases w.player.requestPlay with
    | false => exact ⟨fun _ => hu,fun hleak => absurd hleak.1 Bool.false_ne_true⟩
    | true =>
      obtain ⟨hsound,hleaks⟩ := reported_sound hu (by rwa [henv]) u.player.hasVideo
      rw [henv,hcreated] at hsound hleaks
      rw [← hvideo]
      constructor
      · intro hno
        apply hsound
        exact Bool.eq_false_of_not_eq_true fun hleak => hno ⟨rfl,hok,hleak⟩
      · intro hleak
        exact hleaks hleak.2.2

end steps

/-! ### Construction and teardown -/

namespace KeepsMedia

lemma construct (c : ViewClass) (callback : Bool) (playerSizeMode videoHeight : ℤ) :
    Maintains keepsMedia (c.construct callback playerSizeMode videoHeight) := by
  have hbuilding : Building keepsMedia := by
    constructor
    · intro k hk
      apply call
      cases k <;> simp_all [Call.builds,Call.movesMedia]
    · intro f hf
      exact update fun p => ⟨(hf p).refs,(hf p).created,(hf p).mMedia⟩
  exact hbuilding.construct attachView c callback playerSizeMode videoHeight

end KeepsMedia

/-- Nobody holds a media of a new player. -/
lemma construct_sound {g : Generation} {callback : Bool} {w : World}
    (hw : Constructed g callback w) : Sound w := by
  obtain ⟨c,playerSizeMode,videoHeight,env,-,h⟩ := hw
  have hkeeps := KeepsMedia.construct c callback playerSizeMode videoHeight { env := env }
  have hnothing : Sound { env := env } := by
    constructor
    · intro i
      rfl
    · intro i hi
      exact absurd hi (by simp [World.holder])
    · intro i
      rfl
  rw [h,final_ok] at hkeeps
  exact hnothing.keeps hkeeps

namespace Limited
variable {w : World} (hl : Limited w.env)
include hl

lemma call {c : Call} (hc : c.failable = false) (hm : c.movesMedia = false) :
    Returns (keepsMedia.rel w) (call c) := by
  intro v hv
  have hlv : Limited v.env := by rw [hv.2.2.2]; exact hl
  exact ⟨(),v.called c,run_quiet hlv hc,keepsMedia.trans hv (KeepsMedia.called_rel v hm)⟩

omit hl in
lemma update {f : Player → Player} (h : ∀ p, (f p).refs = p.refs ∧ (f p).created = p.created ∧
    (f p).mediaPlayer.mMedia = p.mediaPlayer.mMedia) : Returns (keepsMedia.rel w) (update f) :=
  .modify fun v hv => keepsMedia.trans hv (KeepsMedia.update h v)

/-- No call of a teardown throws. -/
lemma beforeRelease : Returns (keepsMedia.rel w) ZMediaPlayer.beforeRelease := by
  have hdismantling : Dismantling fun _ m => Returns (keepsMedia.rel w) m := by
    refine ⟨Returns.sequential _,fun c hc => hl.call ?_ ?_,?_,fun f hf => update fun p => ?_⟩
    · cases c <;> first | rfl | cases hc
    · cases c <;> first | rfl | cases hc
    · exact (returns_player _).bind fun _ => .ite (hl.call rfl rfl) (.pure _)
    · exact ⟨(hf p).refs,(hf p).created,(hf p).mMedia⟩
  exact hdismantling.beforeRelease

end Limited

/-- The stop of a player that runs lets go of its media and of nothing else. -/
lemma stop_ledger (g : Generation) {w : World} (hrun : w.player.stopped = false)
    (hcount : w.player.mediaPlayer.mNativeRefCount = 1) {env : Env} (hl : Limited env) :
    (w.step g recording ⟨.stop,env⟩).ledger = w.ledger.letGo w.holder := by
  let x := (w.arrive env).observe (.entered .stop)
  have hx : Limited x.env := hl
  have hrunning : ¬x.player.stopped = true := by
    change ¬w.player.stopped = true
    simp [hrun]
  have hledger : x.ledger = w.ledger :=
    (KeepsMedia.observe_rel (w.arrive env) (o := .entered .stop) fun _ => ⟨rfl,rfl⟩).1
  obtain ⟨u,v,hbefore,hv⟩ := hx.beforeRelease x (keepsMedia.refl x)
  have hkept := (Unreleased.beforeRelease x).1
  have hvlimited : Limited v.env := by rw [hv.2.2.2]; exact hx
  obtain ⟨z,hz,hzledger,-,-,hzenv⟩ := run_releaseMedia (w := v.dropped) hvlimited
  have hvcount : v.player.mediaPlayer.mNativeRefCount = 1 := by
    rw [hbefore,final_ok] at hkept
    exact hkept.trans hcount
  have hend : MediaPlayer.release.run v = .ok () (z.called .nativeRelease) := by
    have hnative := run_quiet (w := z) (by rw [hzenv]; exact hvlimited) (c := .nativeRelease) rfl
    rw [run_release hvcount,if_neg (by simp [hvlimited.quiet (c := .release) rfl])]
    exact bind_eq_ok.mpr ⟨(),z,hz,hnative⟩
  have hstep : w.step g recording ⟨.stop,env⟩ = z.called .nativeRelease := by
    rw [World.step,step_stop g recording w rfl,run_stop,if_neg hrunning,run_tearDown,hbefore]
    exact congrArg final hend
  have hy : keepsMedia.rel x v.dropped := by
    have hcalled := KeepsMedia.called_rel v (c := .release) rfl
    have hledger : v.dropped.ledger = (v.called .release).ledger := KeepsMedia.ledger_update _ rfl rfl
    exact keepsMedia.trans hv (keepsMedia.trans hcalled ⟨hledger,rfl,rfl,rfl⟩)
  have hcalled := KeepsMedia.called_rel z (c := .nativeRelease) rfl
  rw [hstep,hcalled.1,hzledger,hy.1,hy.2.1,hledger]
  rfl

/-! ### Runs -/

/-- Between the steps the media player alone holds its one media, and the stop after them
leaves no media with a reference and none released more often than it was retained. -/
structure MediaBalanced (g : Generation) (w : World) (steps : List Step) : Prop where
  between : ∀ before, before <+: steps →
    (w.run g recording before).ledger.OwnedBy (w.run g recording before).holder
  stopped : ∀ env, Limited env → ∀ i,
    let ledger := ((w.run g recording steps).step g recording ⟨.stop,env⟩).ledger
    ledger.count i = 0 ∧ ledger.released i ≤ ledger.acquired i

/-- The step starts media at most, with calls failing that may. -/
structure Plays (s : Step) : Prop where
  op : s.op.playsMedia = true
  limited : Limited s.env

lemma Plays.not_stop {s : Step} (h : Plays s) : s.op.isStop = false := by
  have hop := h.op
  obtain ⟨op,env⟩ := s
  cases op <;> simp_all [Op.playsMedia,Op.isStop]

section runs
variable {g : Generation} {w : World}

lemma step_sound {s : Step} (hs : Plays s) (h : Sound w) (hrun : w.player.stopped = false) :
    (¬Leaks w s → Sound (w.step g recording s)) ∧
    (Leaks w s → ¬(w.step g recording s).ledger.OwnedBy (w.step g recording s).holder) := by
  have hop := hs.op
  obtain ⟨op,env⟩ := s
  cases op with
  | requestPlay hasVideo => exact requestPlay_sound g h hs.limited hasVideo
  | handleSurfaceAvailable => exact handleSurfaceAvailable_sound g h hs.limited hrun
  | _ => simp [Op.playsMedia] at hop

lemma plays_steady {steps : List Step} (hs : ∀ s ∈ steps, Plays s) :
    steady.rel w (w.run g recording steps) := by
  induction steps using List.reverseRecOn with
  | nil => exact steady.refl w
  | append_singleton steps s ih =>
    rw [run_concat]
    have hbefore := ih fun t ht => hs t (List.mem_append_left _ ht)
    exact steady.trans hbefore (step_steady g _ (hs s (by simp)).not_stop)

/-- Without a step that leaves a reference behind the ownership is sound throughout. -/
lemma run_sound {steps : List Step} (hs : ∀ s ∈ steps, Plays s) (h : Sound w)
    (hrun : w.player.stopped = false)
    (hno : Throughout (fun before s => ¬Leaks (w.run g recording before) s) steps) :
    Sound (w.run g recording steps) := by
  induction steps using List.reverseRecOn with
  | nil => exact h
  | append_singleton steps s ih =>
    have hbefore : ∀ t ∈ steps, Plays t := fun t ht => hs t (List.mem_append_left _ ht)
    obtain ⟨hnone,hlast⟩ := (throughout_concat steps s).mp hno
    have hrunning := (plays_steady (g := g) (w := w) hbefore).stopped.trans hrun
    rw [run_concat]
    exact (step_sound (hs s (by simp)) (ih hbefore hnone) hrunning).1 hlast

/-- The first step that leaves a reference behind shows. -/
lemma owned_no_leaks {steps : List Step} (hs : ∀ s ∈ steps, Plays s) (h : Sound w)
    (hrun : w.player.stopped = false) (howned : ∀ before, before <+: steps →
      (w.run g recording before).ledger.OwnedBy (w.run g recording before).holder) :
    Throughout (fun before s => ¬Leaks (w.run g recording before) s) steps := by
  induction steps using List.reverseRecOn with
  | nil => exact throughout_nil
  | append_singleton steps s ih =>
    have hbefore : ∀ t ∈ steps, Plays t := fun t ht => hs t (List.mem_append_left _ ht)
    have hnone := ih hbefore fun before hpre => howned before (hpre.trans (List.prefix_append _ _))
    have hrunning := (plays_steady (g := g) (w := w) hbefore).stopped.trans hrun
    have hlast := howned (steps ++ [s]) (List.prefix_refl _)
    rw [run_concat] at hlast
    refine (throughout_concat steps s).mpr ⟨hnone,fun hleak => ?_⟩
    exact (step_sound (hs s (by simp)) (run_sound hbefore h hrun hnone) hrunning).2 hleak hlast

end runs

theorem media_balanced_iff (g : Generation) (callback : Bool) (w : World)
    (hw : Constructed g callback w) (steps : List Step) (hs : ∀ s ∈ steps, Plays s) :
    MediaBalanced g w steps ↔
      ∀ before s after, steps = before ++ s :: after → ¬Leaks (w.run g recording before) s := by
  have hsound := construct_sound hw
  have hborn := hw.born
  constructor
  · intro h
    exact owned_no_leaks hs hsound hborn.stopped h.between
  · intro hno
    constructor
    · intro before hpre
      obtain ⟨after,rfl⟩ := hpre
      have hbefore : ∀ s ∈ before, Plays s := fun s hmem => hs s (List.mem_append_left _ hmem)
      have hnone := Throughout.prefix hno
      exact (run_sound hbefore hsound hborn.stopped hnone).owned
    · intro env hl i ledger
      have hend := run_sound hs hsound hborn.stopped hno
      obtain ⟨hrun,hcount,-,-,-⟩ := plays_steady (g := g) (w := w) hs
      have hledger : ledger = _ := stop_ledger g (hrun.trans hborn.stopped)
        (hcount.trans hborn.mNativeRefCount) hl
      rw [hledger]
      constructor
      · exact hend.owned.letGo.count_other (by simp)
      · refine (hend.balanced.letGo fun j hj => ?_).released_le i
        have howned := hend.owned
        rw [hj] at howned
        rw [howned.count_owned]
        exact one_pos

/-- A media that cannot be parsed keeps the reference it was created with. -/
theorem media_leaked :
    (∀ s ∈ [(⟨.requestPlay true,{ throws := fun c => c = .parse }⟩ : Step)], Plays s) ∧
    ¬MediaBalanced .zMediaPlayer ViewClass.audioPlayer.built
      [⟨.requestPlay true,{ throws := fun c => c = .parse }⟩] := by
  constructor
  · intro s hs
    rw [List.mem_singleton.mp hs]
    refine ⟨rfl,fun c hc => ?_⟩
    rw [of_decide_eq_true hc]
    rfl
  · intro h
    exact absurd (h.between _ (List.prefix_refl _) 0) (by decide)

/-- Two starts, the second with a native player that fails. -/
theorem media_balanced_built : MediaBalanced .zMediaPlayer ViewClass.audioPlayer.built
    [⟨.requestPlay true,{}⟩,⟨.requestPlay false,{ throws := fun c => c = .nativePlay }⟩] := by
  refine (media_balanced_iff .zMediaPlayer true ViewClass.audioPlayer.built
    (built_constructed .audioPlayer) _ ?_).mpr ?_
  · intro s hs
    simp only [List.mem_cons,List.not_mem_nil,or_false] at hs
    obtain rfl | rfl := hs
    · exact ⟨rfl,fun c hc => absurd hc Bool.false_ne_true⟩
    · refine ⟨rfl,fun c hc => ?_⟩
      rw [of_decide_eq_true hc]
      rfl
  · change Throughout (fun before s => ¬Leaks _ s) _
    simp only [throughout_cons,throughout_nil,and_true,leaks_requestPlay,not_and]
    constructor
    · intro _
      decide
    · intro _
      decide

end ZenMedia
