import ZenMedia.MediaOwnership

/-! A media that a client and the media player share. The client creates media, retains
and releases them, sets them and gets back the one that is set; the media player takes
its own reference and gives it back. -/
namespace ZenMedia
open Reentrant ReferenceCount TraceLaws

/-- What a client does with a media player and its media. -/
inductive Sharing
  | newMedia
  | retain (media : Media)
  | release (media : Media)
  | setMedia (media : Option Media)
  | getMedia
  deriving DecidableEq, Repr

/-- The references that are the client's own change by one. -/
def gained (media : Media) (held : ℕ → ℕ) : ℕ → ℕ :=
  Function.update held media.serial (held media.serial + 1)

def lost (media : Media) (held : ℕ → ℕ) : ℕ → ℕ :=
  Function.update held media.serial (held media.serial - 1)

namespace Sharing

/-- The call, and what it does to the client's references if it returns. -/
def run : Sharing → M ((ℕ → ℕ) → ℕ → ℕ)
  | newMedia => do pure (gained (← ZMediaPlayer.newMedia))
  | retain media => do
    media.retain
    pure (gained media)
  | release media => do
    media.release
    pure (lost media)
  | setMedia media => do
    MediaPlayer.setMedia media
    pure id
  | getMedia => do
    match ← MediaPlayer.getMedia with
    | some media => pure (gained media)
    | none => pure id

end Sharing

structure Shared where
  world : World
  held : ℕ → ℕ

/-- One call of a client, and what its callees do. -/
structure Request where
  op : Sharing
  env : Env := {}

namespace Shared
variable (s : Shared)

def after (r : EStateM.Result Throwable World ((ℕ → ℕ) → ℕ → ℕ)) : Shared :=
  match r with
  | .ok change w => ⟨w,change s.held⟩
  | .error _ w => ⟨w,s.held⟩

def step (r : Request) : Shared := s.after (r.op.run.run (s.world.arrive r.env))

def run (requests : List Request) : Shared := requests.foldl step s

lemma run_concat (requests : List Request) (r : Request) :
    s.run (requests ++ [r]) = (s.run requests).step r := by
  simp [run]

/-- A media player made from a media that the client has created for it. -/
def opened (media : Media) (env : Env) : Shared :=
  ⟨final ((MediaPlayer.fromMedia (some media)).run (s.world.arrive env)),s.held⟩

/-- The references of every media are the client's own, and the media player's. -/
def Visible : Prop := s.world.ledger.SharedBy s.held s.world.holder

/-- So they are, and of a media that does not exist there are none. -/
structure Accounts : Prop where
  visible : s.Visible
  known : ∀ i, s.world.player.created ≤ i → s.held i = 0 ∧ s.world.holder ≠ some i

/-- What the client has to take care of. -/
def Careful (r : Request) : Prop :=
  match r.op with
  | .retain media => 0 < s.held media.serial ∨ s.world.holder = some media.serial
  | .release media => s.held media.serial = 0 → s.world.holder ≠ some media.serial
  | .setMedia (some media) =>
    if s.held media.serial = 0 then s.world.holder = none
    else r.env.throws .setDefaultMediaPlayerOptions = true →
      s.world.holder = some media.serial
  | .newMedia | .setMedia none | .getMedia => True

instance (r : Request) : Decidable (s.Careful r) := by
  unfold Careful
  split <;> infer_instance

end Shared

/-! ### The calls -/

lemma took_keeps (w : World) (m : Media) :
    (w.took m).player.mediaPlayer.mMedia = w.player.mediaPlayer.mMedia ∧
    (w.took m).player.created = w.player.created := by
  unfold World.took
  rw [World.update_player,World.called_player]
  split
  · exact ⟨rfl,rfl⟩
  · exact ⟨rfl,rfl⟩

section calls
variable {w : World} (hl : Limited w.env)
include hl

lemma run_newMedia : ZMediaPlayer.newMedia.run w = .ok ⟨w.player.created,[]⟩ w.opened :=
  bind_eq_ok.mpr ⟨(),_,run_quiet hl rfl,rfl⟩

lemma run_mediaRetain (m : Media) : m.retain.run w = .ok () (w.took m) :=
  bind_eq_ok.mpr ⟨(),_,run_quiet hl rfl,rfl⟩

lemma run_getMedia : ∃ v, MediaPlayer.getMedia.run w = .ok w.player.mediaPlayer.mMedia v ∧
    v.ledger = (w.holder.elim w.ledger w.ledger.retain) ∧ v.holder = w.holder ∧
    v.player.created = w.player.created := by
  cases hm : w.player.mediaPlayer.mMedia with
  | none =>
    have hholder : w.holder = none := by rw [World.holder,hm]; rfl
    refine ⟨w,by simp [MediaPlayer.getMedia,hm],?_,rfl,rfl⟩
    rw [hholder]
    rfl
  | some media =>
    have hholder : w.holder = some media.serial := by rw [World.holder,hm]; rfl
    obtain ⟨hmedia,hcreated⟩ := took_keeps w media
    refine ⟨w.took media,?_,?_,congrArg (Option.map Media.serial) hmedia,hcreated⟩
    · simp [MediaPlayer.getMedia,hm,run_mediaRetain hl,hmedia]
    · rw [hholder,took_ledger]
      rfl

/-- Without a media to set only the old one is given back. -/
lemma setMedia_none : ∃ v, final ((MediaPlayer.setMedia none).run w) = v ∧
    v.ledger = w.ledger.letGo w.holder ∧ v.holder = none ∧
    v.player.created = w.player.created := by
  have hcalled := KeepsMedia.called_rel w (c := .setMedia) rfl
  obtain ⟨u,hu,hledger,-,hcreated,-⟩ := run_releaseMedia (w := w.called .setMedia) hl
  rw [hcalled.1,hcalled.2.1] at hledger
  have hset : (MediaPlayer.setMedia none).run w = (do
      updateMediaPlayer fun p => { p with mMedia := none }
      call (.nativeSetMedia none)
      updateMediaPlayer fun p => { p with position := 0 }).run u := by
    simp [MediaPlayer.setMedia,run_quiet hl (c := .setMedia) rfl,hu]
  let x := u.update fun p => { p with mediaPlayer := { p.mediaPlayer with mMedia := none } }
  have hx : x.ledger = u.ledger := KeepsMedia.ledger_update u rfl rfl
  have hend : Maintains keepsMedia (do
      call (.nativeSetMedia none)
      updateMediaPlayer fun p => { p with position := 0 }) :=
    .bind (KeepsMedia.call rfl) fun _ => KeepsMedia.update fun _ => ⟨rfl,rfl,rfl⟩
  have hrel := hend x
  refine ⟨_,rfl,?_⟩
  rw [hset]
  exact ⟨hrel.1.trans (hx.trans hledger),hrel.2.1,hrel.2.2.1.trans hcreated⟩

/-- The media that is set first loses the reference that the media player has of it. -/
lemma setMedia_some (media : Media) : ∃ v, final ((MediaPlayer.setMedia (some media)).run w) = v ∧
    ((w.ledger.letGo w.holder).count media.serial = 0 →
      v.ledger = w.ledger.letGo w.holder ∧ v.holder = w.holder ∧
      v.player.created = w.player.created) ∧
    (0 < (w.ledger.letGo w.holder).count media.serial →
      v.ledger = (w.ledger.letGo w.holder).retain media.serial ∧
      (v.holder = if w.env.throws .setDefaultMediaPlayerOptions = true then w.holder
        else some media.serial) ∧ v.player.created = w.player.created) := by
  have hcalled := KeepsMedia.called_rel w (c := .setMedia) rfl
  obtain ⟨u,hu,hledger,hholder,hcreated,henv⟩ := run_releaseMedia (w := w.called .setMedia) hl
  rw [hcalled.1,hcalled.2.1] at hledger
  have hl' : Limited u.env := by rw [henv]; exact hl
  let setting : M Unit := do
    updateMediaPlayer fun p => { p with mMedia := some media }
    call (.nativeSetMedia (some media))
    updateMediaPlayer fun p => { p with position := 0 }
  have hset : (MediaPlayer.setMedia (some media)).run w =
      (do MediaPlayer.acquire media; setting).run u := by
    simp [MediaPlayer.setMedia,run_quiet hl (c := .setMedia) rfl,hu,setting]
  have hsame : u.player.refs media.serial = (w.ledger.letGo w.holder).count media.serial :=
    congrArg (fun l : Ledger ℕ => l.count media.serial) hledger
  refine ⟨_,rfl,fun hdead => ?_,fun halive => ?_⟩
  · have hreleased : media.isReleased.run u = .ok true u := by
      simp [Media.isReleased,hsame,hdead]
    have hrun : (do MediaPlayer.acquire media; setting).run u =
        .error (.illegalArgument "Media is released") u := by
      simp [MediaPlayer.acquire,hreleased]
    rw [hset,hrun]
    exact ⟨hledger,hholder,hcreated⟩
  · have hreleased : media.isReleased.run u = .ok false u := by
      have hne : u.player.refs media.serial ≠ 0 := by omega
      simp [Media.isReleased,hne]
    have hacquire : (MediaPlayer.acquire media).run u =
        (call .setDefaultMediaPlayerOptions).run (u.took media) := by
      simp [MediaPlayer.acquire,hreleased,run_mediaRetain hl']
    have hdefaults := KeepsMedia.called_rel (u.took media) (c := .setDefaultMediaPlayerOptions) rfl
    have hledger' : (u.took media).ledger = (w.ledger.letGo w.holder).retain media.serial := by
      rw [took_ledger,hledger]
    have htookenv : (u.took media).env = w.env := henv
    have htook := took_keeps u media
    by_cases hthrows : w.env.throws .setDefaultMediaPlayerOptions = true
    · have hrun : (do MediaPlayer.acquire media; setting).run u =
          .error (.thrownBy .setDefaultMediaPlayerOptions)
            ((u.took media).called .setDefaultMediaPlayerOptions) := by
        simp [hacquire,run_call,htookenv,hthrows]
      rw [hset,hrun,if_pos hthrows]
      have hmedia := congrArg (Option.map Media.serial) htook.1
      exact ⟨hdefaults.1.trans hledger',hmedia.trans hholder,htook.2.trans hcreated⟩
    · let x := (u.took media).called .setDefaultMediaPlayerOptions
      let y := x.update fun p => { p with mediaPlayer := { p.mediaPlayer with mMedia := some media } }
      have hrun : (do MediaPlayer.acquire media; setting).run u = (do
          call (.nativeSetMedia (some media))
          updateMediaPlayer fun p => { p with position := 0 }).run y := by
        simp [hacquire,run_call,htookenv,hthrows,setting,x,y]
      have hend : Maintains keepsMedia (do
          call (.nativeSetMedia (some media))
          updateMediaPlayer fun p => { p with position := 0 }) :=
        .bind (KeepsMedia.call rfl) fun _ => KeepsMedia.update fun _ => ⟨rfl,rfl,rfl⟩
      have hrel := hend y
      have hy : y.ledger = x.ledger := KeepsMedia.ledger_update x rfl rfl
      rw [hset,hrun,if_neg hthrows]
      exact ⟨hrel.1.trans (hy.trans (hdefaults.1.trans hledger')),hrel.2.1,
        hrel.2.2.1.trans (htook.2.trans hcreated)⟩

end calls

/-! ### Steps -/

namespace Shared
variable {s : Shared} (h : s.Accounts) {env : Env} (hl : Limited env)
include h

lemma Accounts.lt_created {i : ℕ} (hi : 0 < s.held i ∨ s.world.holder = some i) :
    i < s.world.player.created := by
  by_contra hge
  obtain ⟨hzero,hne⟩ := h.known i (by omega)
  rcases hi with hpos | howner
  · omega
  · exact hne howner

/-- A step that changes no references and creates nothing. -/
lemma Accounts.transfer {t : Shared} (hheld : t.held = s.held) (hholder : t.world.holder = s.world.holder)
    (hcreated : t.world.player.created = s.world.player.created) :
    ∀ i, t.world.player.created ≤ i → t.held i = 0 ∧ t.world.holder ≠ some i := by
  rw [hheld,hholder,hcreated]
  exact h.known

/-- A step that gives the client a reference of a media that exists. -/
lemma Accounts.gain {v : World} {media : Media} (hholder : v.holder = s.world.holder)
    (hcreated : s.world.player.created ≤ v.player.created)
    (hlt : media.serial < v.player.created) :
    ∀ i, v.player.created ≤ i → gained media s.held i = 0 ∧ v.holder ≠ some i := by
  intro i hi
  have hold := h.known i (by omega)
  rw [gained,Function.update_of_ne (by omega),hholder]
  exact hold

include hl

omit h in
lemma newMedia_step : s.step ⟨.newMedia,env⟩ =
    ⟨(s.world.arrive env).opened,gained ⟨s.world.player.created,[]⟩ s.held⟩ := by
  have hrun := run_newMedia (w := s.world.arrive env) hl
  simp [step,Sharing.run,hrun,after]
  rfl

lemma newMedia_accounts : (s.step ⟨.newMedia,env⟩).Accounts := by
  obtain ⟨hzero,hne⟩ := h.known s.world.player.created le_rfl
  rw [newMedia_step hl]
  constructor
  · change (s.world.arrive env).opened.ledger.SharedBy _ s.world.holder
    rw [opened_ledger]
    exact h.visible.create hzero hne
  · exact h.gain rfl (Nat.le_succ _) (Nat.lt_succ_self _)

lemma retain_accounts (media : Media) :
    (s.Careful ⟨.retain media,env⟩ → (s.step ⟨.retain media,env⟩).Accounts) ∧
    (¬s.Careful ⟨.retain media,env⟩ → ¬(s.step ⟨.retain media,env⟩).Visible) := by
  let w := s.world.arrive env
  have hstep : s.step ⟨.retain media,env⟩ = ⟨w.took media,gained media s.held⟩ := by
    have hrun := run_mediaRetain (w := w) hl media
    simp [step,Sharing.run,hrun,after,w]
  have hkeeps := took_keeps w media
  have hholder : (w.took media).holder = s.world.holder := congrArg (Option.map Media.serial) hkeeps.1
  have hvisible : (s.step ⟨.retain media,env⟩).Visible ↔ s.Careful ⟨.retain media,env⟩ := by
    rw [hstep,Visible,hholder,took_ledger]
    exact h.visible.retain_iff media.serial
  refine ⟨fun hcare => ⟨hvisible.mpr hcare,?_⟩,fun hcare hv => hcare (hvisible.mp hv)⟩
  rw [hstep]
  exact h.gain hholder hkeeps.2.ge ((h.lt_created hcare).trans_eq hkeeps.2.symm)

lemma release_accounts (media : Media) :
    (s.Careful ⟨.release media,env⟩ → (s.step ⟨.release media,env⟩).Accounts) ∧
    (¬s.Careful ⟨.release media,env⟩ → ¬(s.step ⟨.release media,env⟩).Visible) := by
  let w := s.world.arrive env
  have hstep : s.step ⟨.release media,env⟩ = ⟨w.gaveBack media,lost media s.held⟩ := by
    have hrun := run_mediaRelease (w := w) hl media
    simp [step,Sharing.run,hrun,after,w]
  have hvisible : (s.step ⟨.release media,env⟩).Visible ↔ s.Careful ⟨.release media,env⟩ := by
    rw [hstep,Visible,gaveBack_ledger]
    exact h.visible.release_iff media.serial
  refine ⟨fun hcare => ⟨hvisible.mpr hcare,?_⟩,fun hcare hv => hcare (hvisible.mp hv)⟩
  rw [hstep]
  intro i hi
  have hold := h.known i hi
  refine ⟨?_,hold.2⟩
  change lost media s.held i = 0
  rw [lost,Function.update_apply]
  split
  · next heq => rw [← heq,hold.1]
  · exact hold.1

lemma getMedia_accounts : (s.step ⟨.getMedia,env⟩).Accounts := by
  let w := s.world.arrive env
  obtain ⟨v,hrun,hledger,hholder,hcreated⟩ := run_getMedia (w := w) hl
  cases hm : s.world.player.mediaPlayer.mMedia with
  | none =>
    have hstep : s.step ⟨.getMedia,env⟩ = ⟨v,s.held⟩ := by
      have hnone : w.player.mediaPlayer.mMedia = none := hm
      simp [step,Sharing.run,hrun,hnone,after,w]
    have howner : s.world.holder = none := by rw [World.holder,hm]; rfl
    have hsame : v.ledger = s.world.ledger := hledger.trans (by
      change s.world.holder.elim s.world.ledger _ = _
      rw [howner]
      rfl)
    rw [hstep]
    refine ⟨?_,h.transfer rfl hholder hcreated⟩
    rw [Visible,hsame,hholder]
    exact h.visible
  | some media =>
    have hstep : s.step ⟨.getMedia,env⟩ = ⟨v,gained media s.held⟩ := by
      have hsome : w.player.mediaPlayer.mMedia = some media := hm
      simp [step,Sharing.run,hrun,hsome,after,w]
    have howner : s.world.holder = some media.serial := by rw [World.holder,hm]; rfl
    have hsame : v.ledger = s.world.ledger.retain media.serial := hledger.trans (by
      change s.world.holder.elim s.world.ledger _ = _
      rw [howner]
      rfl)
    rw [hstep]
    constructor
    · rw [Visible,hsame,hholder]
      exact (h.visible.retain_iff media.serial).mpr (.inr howner)
    · exact h.gain hholder hcreated.ge ((h.lt_created (.inr howner)).trans_eq hcreated.symm)

omit h hl in
lemma setMedia_step (media : Option Media) : s.step ⟨.setMedia media,env⟩ =
    ⟨final ((MediaPlayer.setMedia media).run (s.world.arrive env)),s.held⟩ := by
  cases hrun : (MediaPlayer.setMedia media).run (s.world.arrive env) <;>
    simp [step,Sharing.run,hrun,after]

lemma setMedia_none_accounts : (s.step ⟨.setMedia none,env⟩).Accounts := by
  obtain ⟨v,hv,hledger,hholder,hcreated⟩ := setMedia_none (w := s.world.arrive env) hl
  rw [setMedia_step,hv]
  constructor
  · rw [Visible,hledger,hholder]
    exact h.visible.letGo
  · intro i hi
    have hold := h.known i (hi.trans' hcreated.ge)
    exact ⟨hold.1,by rw [hholder]; simp⟩

/-- The media that is set has to be the client's; it then stays where it is if the media
player cannot take it over. -/
lemma setMedia_some_accounts (media : Media) :
    (s.Careful ⟨.setMedia (some media),env⟩ → (s.step ⟨.setMedia (some media),env⟩).Accounts) ∧
    (¬s.Careful ⟨.setMedia (some media),env⟩ →
      ¬(s.step ⟨.setMedia (some media),env⟩).Visible) := by
  have hgiven := h.visible.letGo
  have hcount := (hgiven.count_pos_iff media.serial).trans (or_iff_left (by simp))
  obtain ⟨v,hv,hdead,halive⟩ := setMedia_some (w := s.world.arrive env) hl media
  have hcareful : s.Careful ⟨.setMedia (some media),env⟩ ↔
      if s.held media.serial = 0 then s.world.holder = none
      else env.throws .setDefaultMediaPlayerOptions = true →
        s.world.holder = some media.serial := Iff.rfl
  rw [hcareful,setMedia_step,hv]
  by_cases hheld : s.held media.serial = 0
  · have hzero : (s.world.ledger.letGo s.world.holder).count media.serial = 0 := by omega
    obtain ⟨hledger,hholder,hcreated⟩ := hdead hzero
    have hvisible : (⟨v,s.held⟩ : Shared).Visible ↔ s.world.holder = none := by
      rw [Visible,hledger,hholder]
      exact hgiven.iff_owner.trans eq_comm
    rw [if_pos hheld,← hvisible]
    exact ⟨fun hvis => ⟨hvis,h.transfer rfl hholder hcreated⟩,fun hvis => hvis⟩
  · have hpos : 0 < s.held media.serial := by omega
    obtain ⟨hledger,hholder,hcreated⟩ := halive (hcount.mpr hpos)
    have hvisible : (⟨v,s.held⟩ : Shared).Visible ↔ some media.serial = v.holder := by
      rw [Visible,hledger]
      exact (hgiven.handOver hpos).iff_owner
    have howner : some media.serial = v.holder ↔
        (env.throws .setDefaultMediaPlayerOptions = true → s.world.holder = some media.serial) := by
      rw [hholder]
      change some media.serial = (if env.throws .setDefaultMediaPlayerOptions = true then
        s.world.holder else some media.serial) ↔ _
      by_cases hthrows : env.throws .setDefaultMediaPlayerOptions = true
      · simp [hthrows,eq_comm]
      · simp [hthrows]
    rw [if_neg hheld,← howner,← hvisible]
    refine ⟨fun hvis => ⟨hvis,fun i hi => ?_⟩,fun hvis => hvis⟩
    have hold := h.known i (hi.trans' hcreated.ge)
    refine ⟨hold.1,?_⟩
    rw [← hvisible.mp hvis]
    rintro ⟨rfl⟩
    omega

/-- Careful calls keep the accounts, and others show that they do not. -/
lemma step_accounts (op : Sharing) : (s.Careful ⟨op,env⟩ → (s.step ⟨op,env⟩).Accounts) ∧
    (¬s.Careful ⟨op,env⟩ → ¬(s.step ⟨op,env⟩).Visible) := by
  cases op with
  | newMedia => exact ⟨fun _ => newMedia_accounts h hl,fun hcare => absurd trivial hcare⟩
  | retain media => exact retain_accounts h hl media
  | release media => exact release_accounts h hl media
  | setMedia media =>
    cases media with
    | none => exact ⟨fun _ => setMedia_none_accounts h hl,fun hcare => absurd trivial hcare⟩
    | some media => exact setMedia_some_accounts h hl media
  | getMedia => exact ⟨fun _ => getMedia_accounts h hl,fun hcare => absurd trivial hcare⟩

end Shared

/-! ### Media players -/

namespace Shared
variable {s : Shared}

/-- A new media player shares the media that it is made from. -/
lemma Accounts.opened (h : s.Accounts) (hnone : s.world.holder = none) {media : Media}
    (hheld : 0 < s.held media.serial) {env : Env} (hl : Limited env) :
    (s.opened media env).Accounts ∧
      (s.opened media env).world.player.mediaPlayer.mNativeRefCount = 1 := by
  let w := s.world.arrive env
  let x := w.update fun p => { p with mediaPlayer := { mMedia := some media } }
  have hcount : 0 < s.world.ledger.count media.serial :=
    (h.visible.count_pos_iff media.serial).mpr (.inl hheld)
  have hreleased : media.isReleased.run w = .ok false w := by
    have hne : w.player.refs media.serial ≠ 0 := (show 0 < w.player.refs media.serial from hcount).ne'
    simp [Media.isReleased,hne]
  have hquiet : env.throws .newVLCMediaPlayer = false := hl.quiet rfl
  have htookenv : (x.took media).env = env := rfl
  have hrun : final ((MediaPlayer.fromMedia (some media)).run w) =
      ((x.took media).called .newVLCMediaPlayer).update fun p =>
        { p with mediaPlayer := { p.mediaPlayer with mNativeRefCount := 1 } } := by
    simp [MediaPlayer.fromMedia,hreleased,run_mediaRetain (w := x) hl,run_call,htookenv,hquiet,x]
  have hopened : (s.opened media env).world = _ := hrun
  have hcalled := KeepsMedia.called_rel (x.took media) (c := .newVLCMediaPlayer) rfl
  have hx : x.ledger = s.world.ledger := KeepsMedia.ledger_update w rfl rfl
  have hledger : (s.opened media env).world.ledger = s.world.ledger.retain media.serial := by
    rw [hopened]
    refine (KeepsMedia.ledger_update _ rfl rfl).trans (hcalled.1.trans ?_)
    rw [took_ledger,hx]
  have hkeeps := took_keeps x media
  have hholder : (s.opened media env).world.holder = some media.serial := by
    rw [hopened]
    exact congrArg (Option.map Media.serial) hkeeps.1
  have hcreated : (s.opened media env).world.player.created = s.world.player.created := by
    rw [hopened]
    exact hkeeps.2
  refine ⟨⟨?_,fun i hi => ?_⟩,by rw [hopened]; rfl⟩
  · have hshared := h.visible
    rw [Visible,hnone] at hshared
    rw [Visible,hledger,hholder]
    exact hshared.handOver hheld
  · have hold := h.known i (hi.trans' hcreated.ge)
    refine ⟨hold.1,?_⟩
    rw [hholder]
    rintro ⟨rfl⟩
    have hzero : s.held media.serial = 0 := hold.1
    omega

end Shared

/-- A media player with no media, or with a media that the client has created for it. -/
inductive Opened : Shared → Prop
  | withoutMedia {g : Generation} {callback : Bool} {w : World} :
      Constructed g callback w → Opened ⟨w,fun _ => 0⟩
  | withMedia {env env' : Env} : Limited env → Limited env' →
      Opened ((Shared.step ⟨{},fun _ => 0⟩ ⟨.newMedia,env⟩).opened ⟨0,[]⟩ env')

lemma Opened.accounts {s : Shared} (h : Opened s) :
    s.Accounts ∧ s.world.player.mediaPlayer.mNativeRefCount = 1 := by
  cases h with
  | withoutMedia hw =>
    have hsound := construct_sound hw
    refine ⟨⟨fun i => ?_,fun i hi => ⟨rfl,fun hholder => ?_⟩⟩,hw.born.mNativeRefCount⟩
    · exact (hsound.owned i).trans (Nat.zero_add _).symm
    · exact absurd (hsound.known i hholder) (not_lt.mpr hi)
  | withMedia hl hl' =>
    have hnothing : Shared.Accounts ⟨{},fun _ => 0⟩ := by
      constructor
      · intro i
        rfl
      · intro i _
        exact ⟨rfl,by simp [World.holder]⟩
    have hcreated := Shared.newMedia_accounts hnothing hl
    have hstep := Shared.newMedia_step (s := ⟨{},fun _ => 0⟩) hl
    refine hcreated.opened ?_ ?_ hl'
    · rw [hstep]
      rfl
    · rw [hstep]
      simp [gained]

/-! ### Runs -/

/-- The calls leave the references of the media player as they are. -/
lemma step_mNativeRefCount (s : Shared) (r : Request) :
    (s.step r).world.player.mediaPlayer.mNativeRefCount =
      s.world.player.mediaPlayer.mNativeRefCount := by
  let f : Player → ℕ := fun p => p.mediaPlayer.mNativeRefCount
  have hmedialess : Medialess f := ⟨fun _ _ => rfl,fun _ _ => rfl,fun _ _ _ => rfl⟩
  have hretain (m : Media) : Maintains (fixes f) m.retain := by
    refine (Fixes.call _).bind fun _ => Fixes.update fun p => ?_
    split <;> rfl
  have hsetMedia (media : Option Media) : Maintains (fixes f) (MediaPlayer.setMedia media) := by
    cases media with
    | none =>
      refine (Fixes.call _).bind fun _ => (Fixes.releaseMedia hmedialess).bind fun _ => ?_
      refine (Maintains.pure _).bind fun _ => .bind (Fixes.update fun _ => rfl) fun _ => ?_
      exact (Fixes.call _).bind fun _ => Fixes.update fun _ => rfl
    | some media => exact Fixes.setMedia hmedialess media
  have hgetMedia : Maintains (fixes f) MediaPlayer.getMedia := by
    refine Fixes.player.bind fun p => ?_
    have hlast : Maintains (fixes f) (do pure (← player).mediaPlayer.mMedia) :=
      Fixes.player.bind fun _ => .pure _
    cases p.mediaPlayer.mMedia with
    | none => exact hlast
    | some media => exact (hretain media).bind fun _ => hlast
  have hrun : Maintains (fixes f) r.op.run := by
    cases r.op with
    | newMedia =>
      have hnew : Maintains (fixes f) ZMediaPlayer.newMedia :=
        (Fixes.call _).bind fun _ => Fixes.player.bind fun _ =>
          .bind (Fixes.update fun _ => rfl) fun _ => .pure _
      exact hnew.bind fun _ => .pure _
    | retain media => exact (hretain media).bind fun _ => .pure _
    | release media => exact (Fixes.mediaRelease hmedialess media).bind fun _ => .pure _
    | setMedia media => exact (hsetMedia media).bind fun _ => .pure _
    | getMedia =>
      refine hgetMedia.bind fun media => ?_
      cases media with
      | none => exact .pure _
      | some media => exact .pure _
  have hstep : (s.step r).world = final (r.op.run.run (s.world.arrive r.env)) := by
    rw [Shared.step]
    cases r.op.run.run (s.world.arrive r.env) <;> rfl
  rw [hstep]
  exact hrun (s.world.arrive r.env)

/-- Between the calls the references are those of the client and of the media player, and
when the media player is released only the client's are left. -/
structure MediaShared (s : Shared) (requests : List Request) : Prop where
  between : ∀ before, before <+: requests → (s.run before).Visible
  released : ∀ env, Limited env → ∀ i,
    (final (MediaPlayer.release.run ((s.run requests).world.arrive env))).ledger.count i =
      (s.run requests).held i

lemma run_mNativeRefCount (s : Shared) (requests : List Request) :
    (s.run requests).world.player.mediaPlayer.mNativeRefCount =
      s.world.player.mediaPlayer.mNativeRefCount := by
  induction requests using List.reverseRecOn with
  | nil => rfl
  | append_singleton requests r ih =>
    rw [Shared.run_concat,step_mNativeRefCount]
    exact ih

/-- The last reference of the media player takes that of its media with it. -/
lemma release_ledger {w : World} (hl : Limited w.env)
    (hcount : w.player.mediaPlayer.mNativeRefCount = 1) :
    (final (MediaPlayer.release.run w)).ledger = w.ledger.letGo w.holder := by
  have hdropped : w.dropped.ledger = w.ledger :=
    (KeepsMedia.ledger_update _ rfl rfl).trans (KeepsMedia.called_rel w (c := .release) rfl).1
  obtain ⟨v,hv,hledger,-,-,henv⟩ := run_releaseMedia (w := w.dropped) hl
  have hnative := run_quiet (w := v) (by rw [henv]; exact hl) (c := .nativeRelease) rfl
  have hend : MediaPlayer.release.run w = .ok () (v.called .nativeRelease) := by
    rw [run_release hcount,if_neg (by simp [hl.quiet (c := .release) rfl])]
    exact bind_eq_ok.mpr ⟨(),v,hv,hnative⟩
  rw [hend,final_ok,(KeepsMedia.called_rel v (c := .nativeRelease) rfl).1,hledger,hdropped]
  rfl

theorem media_shared_iff {s : Shared} (hs : Opened s) (requests : List Request)
    (hr : ∀ r ∈ requests, Limited r.env) :
    MediaShared s requests ↔
      ∀ before r after, requests = before ++ r :: after → (s.run before).Careful r := by
  obtain ⟨haccounts,hcount⟩ := hs.accounts
  obtain ⟨hiff,hsound⟩ := visible_iff (fun before r => (s.run before).Careful r)
    (fun before => (s.run before).Accounts) (fun before => (s.run before).Visible)
    requests haccounts (fun _ h => h.visible)
    (fun before r hmem h hcare => by
      rw [Shared.run_concat]
      exact (Shared.step_accounts h (hr r hmem) r.op).1 hcare)
    (fun before r hmem h hcare => by
      rw [Shared.run_concat]
      exact (Shared.step_accounts h (hr r hmem) r.op).2 hcare)
  refine ⟨fun h => hiff.mp h.between,fun hcare => ⟨hiff.mpr hcare,fun env hl i => ?_⟩⟩
  let w := (s.run requests).world.arrive env
  have hone : w.player.mediaPlayer.mNativeRefCount = 1 := (run_mNativeRefCount s requests).trans hcount
  have hleft := (hsound hcare).visible.letGo
  rw [release_ledger (w := w) hl hone]
  exact (hleft i).trans (Nat.add_zero _)

/-- The client gets its media back, gives up both references and sets another media. -/
theorem media_shared_reused : MediaShared
    ((Shared.step ⟨{},fun _ => 0⟩ ⟨.newMedia,{}⟩).opened ⟨0,[]⟩ {})
    [⟨.getMedia,{}⟩,⟨.setMedia (some ⟨0,[]⟩),{}⟩,⟨.release ⟨0,[]⟩,{}⟩,⟨.release ⟨0,[]⟩,{}⟩,
      ⟨.newMedia,{}⟩,⟨.setMedia (some ⟨1,[]⟩),{ throws := fun c => c = .nativeSetMedia (some ⟨1,[]⟩) }⟩] := by
  have hquiet : Limited {} := fun c hc => absurd hc Bool.false_ne_true
  have hlast : Limited { throws := fun c => c = .nativeSetMedia (some ⟨1,[]⟩) } := by
    intro c hc
    rw [of_decide_eq_true hc]
    rfl
  refine (media_shared_iff (.withMedia hquiet hquiet) _ ?_).mpr ?_
  · simp only [List.mem_cons,List.not_mem_nil,or_false,forall_eq_or_imp,forall_eq]
    exact ⟨hquiet,hquiet,hquiet,hquiet,hquiet,hlast⟩
  · change Throughout (fun before r => Shared.Careful _ r) _
    simp only [throughout_cons,throughout_nil,and_true]
    decide

end ZenMedia
