import ZenMedia.ProgressOrder
import ZenMedia.Transduction

/-! The protocol between the event handler and its client: an automaton over the
callbacks that reads what the handler tells and nothing else, whatever events it meets. -/
namespace ZenMedia
open Reentrant TraceLaws Transduction

/-- What the client knows of the running session: nothing, its duration just now, or
that it plays. -/
inductive Hearing
  | silent
  | announced
  | playing
  deriving DecidableEq, Repr

namespace Hearing

/-- Where the automaton stands between two messages. -/
def ofFlag (flag : Bool) : Hearing := if flag then playing else silent

/-- One callback. The announcement is followed at once by a position, or with the first
generation by the end of the media. -/
def hear (g : Generation) : Hearing → Callback → Option Hearing
  | silent, .onPlay _ => some announced
  | announced, .onPostPosition _ => some playing
  | announced, .onComplete => if g = .zMediaPlayer then some silent else none
  | announced, _ => none
  | playing, .onPlay _ => none
  | playing, .onPostPosition _ => some playing
  | silent, .onPostPosition _ => none
  | playing, .onComplete => some playing
  | silent, .onComplete => if g = .zMediaPlayer2 then some silent else none
  | _, .onStopped => some silent
  | s, .onError e => if e = .unknownException "ZMediaPlayer" then some s else none
  | s, .onPaused _ => some s
  | s, .onHardwareAccelerationError => some s

end Hearing

/-- The handler of a player that is not released, as a transducer over its session flag. -/
def Generation.handler (g : Generation) : Transducer Bool Message Callback where
  next flag m := flagAfter flag m.event
  emit flag m := g.deliveries flag false m

/-- A word that the automaton reads starts with what some message delivers. -/
lemma handler_lead (g : Generation) (flag : Bool) (c : Callback) (cs : List Callback) {s : Hearing}
    (hs : s ≠ .announced) (hread : readAll (Hearing.hear g) (.ofFlag flag) (c :: cs) = some s) :
    ∃ m, g.handler.emit flag m ≠ [] ∧ g.handler.emit flag m <+: c :: cs := by
  cases c with
  | onPaused position => exact ⟨⟨.mediaPlayerPaused,0,position,false⟩,by simp [Generation.handler,Generation.deliveries]⟩
  | onStopped =>
    exact ⟨⟨.mediaPlayerStopped,0,0,false⟩,by simp [Generation.handler,Generation.deliveries]⟩
  | onHardwareAccelerationError =>
    exact ⟨⟨.hardwareAccelerationError,0,0,false⟩,by simp [Generation.handler,Generation.deliveries]⟩
  | onError e =>
    have he : e = .unknownException "ZMediaPlayer" := by
      by_contra he
      cases flag <;> simp [readAll_cons,Hearing.ofFlag,Hearing.hear,he] at hread
    exact ⟨⟨.mediaPlayerEncounteredError,0,0,false⟩,
      by simp [Generation.handler,Generation.deliveries,he]⟩
  | onPostPosition position =>
    have hflag : flag = true := by
      cases flag with
      | true => rfl
      | false => simp [readAll_cons,Hearing.ofFlag,Hearing.hear] at hread
    exact ⟨⟨.mediaPlayerPositionChanged,0,position,false⟩,
      by simp [Generation.handler,Generation.deliveries,hflag]⟩
  | onComplete =>
    have hknown : g = .zMediaPlayer2 ∨ flag = true := by
      cases flag with
      | true => exact .inr rfl
      | false =>
        by_contra hg
        simp [readAll_cons,Hearing.ofFlag,Hearing.hear,not_or.mp hg] at hread
    refine ⟨⟨.mediaPlayerEndReached,0,0,false⟩,?_⟩
    cases hknown with
    | inl hg => simp [Generation.handler,Generation.deliveries,hg]
    | inr hflag => simp [Generation.handler,Generation.deliveries,hflag]
  | onPlay duration =>
    have hflag : flag = false := by
      cases flag with
      | false => rfl
      | true => simp [readAll_cons,Hearing.ofFlag,Hearing.hear] at hread
    subst hflag
    -- the word cannot end with the announcement
    cases cs with
    | nil =>
      refine absurd ?_ hs
      simpa [readAll_cons,Hearing.ofFlag,Hearing.hear,eq_comm] using hread
    | cons d cs =>
      cases d with
      | onPostPosition position =>
        exact ⟨⟨.mediaPlayerPositionChanged,duration,position,false⟩,
          by simp [Generation.handler,Generation.deliveries]⟩
      | onComplete =>
        have hg : g = .zMediaPlayer := by
          by_contra hg
          simp [readAll_cons,Hearing.ofFlag,Hearing.hear,hg] at hread
        exact ⟨⟨.mediaPlayerEndReached,duration,0,false⟩,
          by simp [Generation.handler,Generation.deliveries,hg]⟩
      | _ => simp [readAll_cons,Hearing.ofFlag,Hearing.hear] at hread

lemma handler_reads (g : Generation) : Reads (Hearing.hear g) g.handler Hearing.ofFlag where
  follow flag m := by
    simp only [Generation.handler,Generation.deliveries]
    cases m.event <;> cases flag <;> cases g <;>
      simp [readAll_cons,Hearing.hear,Hearing.ofFlag,flagAfter]
  lead flag t cs hne hread := by
    obtain ⟨c,cs,rfl⟩ := List.exists_cons_of_ne_nil hne
    refine handler_lead g flag c cs ?_ hread
    cases t <;> simp [Hearing.ofFlag]

/-! ### What a client hears -/

section clients
variable (g : Generation) {w : World}

/-- A client that never stops the player hears the output of the handler. -/
lemma handle_output (hw : Fresh w) (hlive : w.player.mediaPlayer.isReleased = false)
    (ms : List Message) : (w.handle g ms).callbacks = g.handler.output false ms ∧
      (w.handle g ms).player.eventHandler.isOnPlayCallback = g.handler.stateAfter false ms := by
  induction ms using List.reverseRecOn with
  | nil =>
    refine ⟨?_,hw.quiet⟩
    rw [handle_nil,World.callbacks,hw.untold]
    rfl
  | append_singleton ms m ih =>
    have hh := handled g hw ms
    obtain ⟨-,hflag,-⟩ := step_listening g m hh.listening
    rw [handle_concat,callbacks_step g m hh.listening,hflag,Transducer.output_concat,
      Transducer.stateAfter_concat,ih.1,ih.2,hh.isReleased,hlive]
    exact ⟨rfl,rfl⟩

/-- The automaton has read everything the client was told; as long as the client has not
stopped the player, it stands where the session flag says. -/
structure Readable (w : World) : Prop where
  told : ∃ s, readAll (Hearing.hear g) .silent w.callbacks = some s
  attended : w.player.callBack = true → Attended w ∧ w.player.mediaPlayer.isReleased = false ∧
    readAll (Hearing.hear g) .silent w.callbacks =
      some (.ofFlag w.player.eventHandler.isOnPlayCallback)

lemma callbacks_of_record {v : World} {e : Event} {cs : List Callback}
    (h : v.record = w.record ++ .entered (.handleMessage e) :: cs.map .callback) :
    v.callbacks = w.callbacks ++ cs := by
  rw [World.callbacks,World.callbacks,h,List.filterMap_append,List.filterMap_cons_none rfl,
    List.filterMap_map]
  simp [Function.comp_def,Obs.asCallback]

lemma Readable.step (client : Client) (m : Message) (hw : Readable g w) :
    Readable g (w.step g client.react m.step) := by
  cases hcb : w.player.callBack with
  | false =>
    obtain ⟨hoff,hrec⟩ := step_silent g client.react m hcb
    have hsame : (w.step g client.react m.step).callbacks = w.callbacks ++ [] :=
      callbacks_of_record hrec
    refine ⟨?_,fun hon => by simp [hoff] at hon⟩
    rw [hsame,List.append_nil]
    exact hw.told
  | true =>
    obtain ⟨hattended,hlive,hread⟩ := hw.attended hcb
    obtain ⟨cs,hopens,hrec,houtcome⟩ := step_heard g client m hattended
    have hword := (handler_reads g).follow w.player.eventHandler.isOnPlayCallback m
    rw [hlive] at hopens houtcome
    refine ⟨?_,fun hon => ?_⟩
    · obtain ⟨s,hs⟩ := readAll_prefix _ hword hopens.1
      refine ⟨s,?_⟩
      rw [callbacks_of_record hrec,readAll_append,hread]
      exact hs
    · rcases houtcome with ⟨rfl,hstays,hlives,hflag⟩ | ⟨hoff,-⟩
      · refine ⟨hstays,hlives,?_⟩
        rw [callbacks_of_record hrec,readAll_append,hread,hflag]
        exact hword
      · simp [hoff] at hon

/-- The callbacks of any client are read by the automaton, also if it stops the player
inside one of them, and every word that does not end with an announcement is heard. -/
theorem callback_language (hw : Constructed g true w) :
    (∀ (client : Client) (ms : List Message),
      ∃ s, readAll (Hearing.hear g) .silent (w.attend g client ms).callbacks = some s) ∧
    ∀ cs, (∃ ms, (w.handle g ms).callbacks = cs) ↔
      ∃ s, s ≠ .announced ∧ readAll (Hearing.hear g) .silent cs = some s := by
  have hborn := hw.born
  have hfresh := hborn.fresh
  have hlive : w.player.mediaPlayer.isReleased = false := by
    simp [MediaPlayer.isReleased,hborn.mNativeRefCount]
  constructor
  · intro client ms
    have hreadable : Readable g (w.attend g client ms) := by
      induction ms using List.reverseRecOn with
      | nil =>
        have hnone : w.callbacks = [] := by rw [World.callbacks,hfresh.untold]; rfl
        change Readable g w
        refine ⟨⟨.silent,by rw [hnone]; rfl⟩,fun _ => ⟨⟨hfresh.listening,hfresh.running⟩,hlive,?_⟩⟩
        rw [hnone,hfresh.quiet]
        rfl
      | append_singleton ms m ih =>
        rw [attend_concat]
        exact ih.step g client m
    exact hreadable.told
  · intro cs
    have hiff := (handler_reads g).output_iff false cs
    have hplaces : (∃ flag, readAll (Hearing.hear g) (.ofFlag false) cs = some (.ofFlag flag)) ↔
        ∃ s, s ≠ .announced ∧ readAll (Hearing.hear g) .silent cs = some s := by
      constructor
      · rintro ⟨flag,h⟩
        exact ⟨.ofFlag flag,by cases flag <;> simp [Hearing.ofFlag],h⟩
      · rintro ⟨s,hs,h⟩
        cases s with
        | silent => exact ⟨false,h⟩
        | announced => exact absurd rfl hs
        | playing => exact ⟨true,h⟩
    rw [← hplaces,← hiff]
    exact exists_congr fun ms => by rw [(handle_output g hfresh hlive ms).1]

end clients

/-- A session that is announced, plays to its end and is stopped. -/
theorem callback_language_built : ∃ ms,
    (ViewClass.textureViewPlayer.built.handle .zMediaPlayer ms).callbacks =
      [.onPlay 7,.onPostPosition 0,.onPaused (1/2),.onComplete,.onStopped] :=
  ((callback_language .zMediaPlayer (built_constructed .textureViewPlayer)).2 _).mpr
    ⟨.silent,by decide,rfl⟩

end ZenMedia
