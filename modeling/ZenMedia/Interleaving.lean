import ZenMedia.Reentrant

/-! Threads that run one program of atomic statements on a shared state, interleaved in
any order. The program is guarded by a flag that its second statement sets, so that more
than one thread may get through before the flag is seen; once one of them has come to its
end a statement of the others may throw. -/
namespace ZenMedia.Interleaving
open Reentrant

variable {ε σ ι κ τ : Type}

/-- The statements one after the other; each says whether to go on. -/
def sequential (exec : κ → EStateM ε σ Bool) : List κ → EStateM ε σ Unit
  | [] => pure ()
  | k :: next => do
    if ← exec k then sequential exec next else pure ()

/-- The state that the threads share, what they still have to do, and the exceptions that have
ended them. -/
structure Pool (ε σ ι κ : Type) where
  shared : σ
  rest : ι → List κ
  thrown : ι → Option ε

namespace Pool
variable [DecidableEq ι] (exec : κ → EStateM ε σ Bool)

/-- Thread `i` has changed the state and has `next` left. -/
def moved (p : Pool ε σ ι κ) (i : ι) (t : σ) (next : List κ) : Pool ε σ ι κ :=
  ⟨t,Function.update p.rest i next,p.thrown⟩

/-- Thread `i` has changed the state and thrown `e`. -/
def failed (p : Pool ε σ ι κ) (i : ι) (e : ε) (t : σ) : Pool ε σ ι κ :=
  ⟨t,Function.update p.rest i [],Function.update p.thrown i (some e)⟩

section moved
variable (p : Pool ε σ ι κ) (i : ι) (e : ε) (t : σ) (next : List κ)

@[simp] lemma moved_shared : (p.moved i t next).shared = t := rfl

@[simp] lemma moved_thrown : (p.moved i t next).thrown = p.thrown := rfl

@[simp] lemma moved_self : (p.moved i t next).rest i = next := Function.update_self ..

lemma moved_ne {j : ι} (h : j ≠ i) : (p.moved i t next).rest j = p.rest j :=
  Function.update_of_ne h ..

@[simp] lemma failed_shared : (p.failed i e t).shared = t := rfl

lemma failed_rest : (p.failed i e t).rest = (p.moved i t []).rest := rfl

@[simp] lemma failed_self : (p.failed i e t).thrown i = some e := Function.update_self ..

lemma failed_ne {j : ι} (h : j ≠ i) : (p.failed i e t).thrown j = p.thrown j :=
  Function.update_of_ne h ..

end moved

/-- The next statement of thread `i`; a thread that is done does nothing. -/
def step (p : Pool ε σ ι κ) (i : ι) : Pool ε σ ι κ :=
  match p.rest i with
  | [] => p
  | k :: next =>
    match (exec k).run p.shared with
    | .ok true t => p.moved i t next
    | .ok false t => p.moved i t []
    | .error e t => p.failed i e t

def run (p : Pool ε σ ι κ) (schedule : List ι) : Pool ε σ ι κ := schedule.foldl (step exec) p

lemma run_concat (p : Pool ε σ ι κ) (schedule : List ι) (i : ι) :
    p.run exec (schedule ++ [i]) = (p.run exec schedule).step exec i := by
  simp [run]

variable {exec} {p : Pool ε σ ι κ} {i : ι} {k : κ} {next : List κ} {e : ε} {t : σ}

lemma step_done (h : p.rest i = []) : p.step exec i = p := by
  simp [step,h]

lemma step_on (h : p.rest i = k :: next) (hrun : (exec k).run p.shared = .ok true t) :
    p.step exec i = p.moved i t next := by
  simp [step,h,hrun]

lemma step_off (h : p.rest i = k :: next) (hrun : (exec k).run p.shared = .ok false t) :
    p.step exec i = p.moved i t [] := by
  simp [step,h,hrun]

lemma step_failed (h : p.rest i = k :: next) (hrun : (exec k).run p.shared = .error e t) :
    p.step exec i = p.failed i e t := by
  simp [step,h,hrun]

end Pool

/-! ### The threads that come before the first repetition -/

section untilRepeat
variable [DecidableEq ι]

/-- The longest beginning without a repetition. -/
def untilRepeat : List ι → List ι
  | [] => []
  | x :: xs => x :: (untilRepeat xs).takeWhile (· ≠ x)

lemma untilRepeat_of_nodup {xs : List ι} (h : xs.Nodup) : untilRepeat xs = xs := by
  induction xs with
  | nil => rfl
  | cons x xs ih =>
    obtain ⟨hx,hxs⟩ := List.nodup_cons.mp h
    rw [untilRepeat,ih hxs,List.takeWhile_eq_self_iff.mpr]
    intro y hy
    have hne : y ≠ x := fun he => hx (he ▸ hy)
    simpa using hne

lemma untilRepeat_nodup (xs : List ι) : (untilRepeat xs).Nodup := by
  induction xs with
  | nil => exact List.nodup_nil
  | cons x xs ih =>
    refine List.nodup_cons.mpr ⟨fun hx => ?_,ih.sublist (List.takeWhile_sublist _)⟩
    simpa using List.mem_takeWhile_imp hx

lemma untilRepeat_concat (xs : List ι) (x : ι) : untilRepeat (xs ++ [x]) =
    if xs.Nodup ∧ x ∉ xs then xs ++ [x] else untilRepeat xs := by
  induction xs with
  | nil => simp [untilRepeat]
  | cons y ys ih =>
    rw [List.cons_append,untilRepeat,ih]
    by_cases hfresh : ys.Nodup ∧ x ∉ ys
    · obtain ⟨hys,hx⟩ := hfresh
      rw [if_pos ⟨hys,hx⟩,List.takeWhile_append,untilRepeat,untilRepeat_of_nodup hys]
      by_cases hy : y ∈ ys
      · have hmeets : ys.takeWhile (· ≠ y) ≠ ys := by
          rw [Ne,List.takeWhile_eq_self_iff]
          exact fun hall => absurd (hall y hy) (by simp)
        have hlength : (ys.takeWhile (· ≠ y)).length ≠ ys.length := fun hlen =>
          hmeets ((List.takeWhile_prefix _).eq_of_length hlen)
        rw [if_neg hlength,if_neg (by simp [hy])]
      · have hall : ys.takeWhile (· ≠ y) = ys := by
          rw [List.takeWhile_eq_self_iff]
          intro z hz
          have hne : z ≠ y := fun he => hy (he ▸ hz)
          simpa using hne
        rw [if_pos (by rw [hall]),hall]
        by_cases hxy : x = y
        · simp [hxy]
        · simp [hxy,hy,hys,hx]
    · have hnot : ¬((y :: ys).Nodup ∧ x ∉ y :: ys) := by
        rintro ⟨hys,hx⟩
        exact hfresh ⟨(List.nodup_cons.mp hys).2,fun h => hx (List.mem_cons_of_mem y h)⟩
      rw [if_neg hfresh,if_neg hnot]
      rfl

end untilRepeat

/-! ### A program behind a flag -/

/-- `guard` goes on unless the flag is set, `first` sets it and nothing unsets it. In the states
of `I` a statement throws only when the program is finished, which it is once some thread has carried
out its last statement. -/
structure Latch (exec : κ → EStateM ε σ Bool) (I : σ → Prop) (flag finished : σ → Bool) (guard first : κ)
    (tail : List κ) : Prop where
  guard : ∀ s, I s → (exec guard).run s = .ok (!flag s) s
  sets : ∀ s, I s → ∃ t, (exec first).run s = .ok true t ∧ flag t = true
  go : ∀ k ∈ first :: tail, ∀ s, I s → ∃ t, I t ∧ (flag s = true → flag t = true) ∧
    ((exec k).run s = .ok true t ∨ finished s = true ∧ ∃ e, (exec k).run s = .error e t)
  last : ∀ k next, k :: next <:+ first :: tail → ∀ s t, I s → (exec k).run s = .ok true t →
    finished t = true → finished s = true ∨ next = []

/-- What the flag says about the threads that have begun. -/
structure Racing [DecidableEq ι] (I : σ → Prop) (flag : σ → Bool) (guard first : κ) (tail : List κ)
    (schedule : List ι) (p : Pool ε σ ι κ) : Prop where
  holds : I p.shared
  waiting : ∀ i, i ∉ schedule → p.rest i = guard :: first :: tail
  inside : ∀ i ∈ untilRepeat schedule, p.rest i <:+ first :: tail
  refused : ∀ i ∈ schedule, i ∉ untilRepeat schedule → p.rest i = []
  unset : flag p.shared = false → schedule.Nodup ∧ ∀ i ∈ schedule, p.rest i = first :: tail
  set : flag p.shared = true → ¬schedule.Nodup

section racing
variable [DecidableEq ι] {exec : κ → EStateM ε σ Bool} {I : σ → Prop} {flag finished : σ → Bool}
  {guard first : κ} {tail : List κ}

lemma untilRepeat_subset (xs : List ι) {x : ι} (h : x ∈ untilRepeat xs) : x ∈ xs := by
  induction xs with
  | nil => exact h
  | cons y ys ih =>
    rcases List.mem_cons.mp h with rfl | hx
    · exact List.mem_cons_self
    · exact List.mem_cons_of_mem _ (ih ((List.takeWhile_sublist _).mem hx))

omit [DecidableEq ι] in
lemma Racing.congr [DecidableEq ι] {schedule : List ι} {p q : Pool ε σ ι κ}
    (h : Racing I flag guard first tail schedule p) (hshared : q.shared = p.shared)
    (hrest : q.rest = p.rest) : Racing I flag guard first tail schedule q := by
  obtain ⟨hholds,hwaiting,hinside,hrefused,hunset,hset⟩ := h
  constructor
  all_goals simp only [hshared,hrest]
  all_goals assumption

/-- What a step of a racing pool can do: a thread passes the guard or is refused by it, a thread
that has passed goes on or throws, or one that is done does nothing. -/
inductive Moves (exec : κ → EStateM ε σ Bool) (finished : σ → Bool) (guard first : κ) (tail : List κ)
    (p : Pool ε σ ι κ) (i : ι) : List ι → Pool ε σ ι κ → List ι → Prop
  | pass (passed : List ι) : i ∉ passed → (exec guard).run p.shared = .ok true p.shared →
      Moves exec finished guard first tail p i passed
        (p.moved i p.shared (first :: tail)) (passed ++ [i])
  | refuse (passed : List ι) : i ∉ passed →
      Moves exec finished guard first tail p i passed (p.moved i p.shared []) passed
  | go (passed : List ι) (k : κ) (next : List κ) (t : σ) : i ∈ passed → p.rest i = k :: next →
      (exec k).run p.shared = .ok true t →
      Moves exec finished guard first tail p i passed (p.moved i t next) passed
  | fail (passed : List ι) (k : κ) (next : List κ) (e : ε) (t : σ) : i ∈ passed →
      p.rest i = k :: next → finished p.shared = true → (exec k).run p.shared = .error e t →
      Moves exec finished guard first tail p i passed (p.failed i e t) passed
  | rest (passed : List ι) : Moves exec finished guard first tail p i passed p passed

/-- The step of a thread that has begun. -/
lemma Latch.step_begun (h : Latch exec I flag finished guard first tail) {schedule : List ι}
    {p : Pool ε σ ι κ} (hp : Racing I flag guard first tail schedule p) {i : ι} (hi : i ∈ schedule) :
    Racing I flag guard first tail (schedule ++ [i]) (p.step exec i) ∧
    Moves exec finished guard first tail p i (untilRepeat schedule) (p.step exec i)
      (untilRepeat (schedule ++ [i])) := by
  have hnot : ¬(schedule ++ [i]).Nodup := fun hn =>
    (List.nodup_append.mp hn).2.2 i hi i (by simp) rfl
  have hsame : untilRepeat (schedule ++ [i]) = untilRepeat schedule := by
    rw [untilRepeat_concat,if_neg fun hc => hc.2 hi]
  have hmem : ∀ j, j ∈ schedule ++ [i] ↔ j ∈ schedule := by
    intro j
    rw [List.mem_append,List.mem_singleton,or_iff_left_of_imp]
    rintro rfl
    exact hi
  rw [hsame]
  cases hrest : p.rest i with
  | nil =>
    rw [Pool.step_done hrest]
    refine ⟨⟨hp.holds,?_,?_,?_,?_,fun _ => hnot⟩,.rest _⟩
    · exact fun j hj => hp.waiting j fun hjs => hj ((hmem j).mpr hjs)
    · rw [hsame]
      exact hp.inside
    · rw [hsame]
      exact fun j hj => hp.refused j ((hmem j).mp hj)
    · intro hflag
      have hfirst := (hp.unset hflag).2 i hi
      rw [hrest] at hfirst
      cases hfirst
  | cons k next =>
    have hpassed : i ∈ untilRepeat schedule := by
      by_contra hout
      rw [hp.refused i hi hout] at hrest
      cases hrest
    have hsuffix := hp.inside i hpassed
    rw [hrest] at hsuffix
    obtain ⟨t,ht,hkept,hrun⟩ := h.go k (hsuffix.mem List.mem_cons_self) p.shared hp.holds
    have hset : flag t = true := by
      cases hflag : flag p.shared with
      | true => exact hkept hflag
      | false =>
        have hfirst := (hp.unset hflag).2 i hi
        rw [hrest] at hfirst
        obtain ⟨rfl,-⟩ := List.cons_eq_cons.mp hfirst
        obtain ⟨u,hu,hmarked⟩ := h.sets p.shared hp.holds
        rcases hrun with hrun | ⟨-,e,hrun⟩
        · obtain ⟨-,rfl⟩ := EStateM.Result.ok.inj (hu.symm.trans hrun)
          exact hmarked
        · rw [hu] at hrun
          cases hrun
    have hmoved : ∀ left, left <:+ k :: next →
        Racing I flag guard first tail (schedule ++ [i]) (p.moved i t left) := by
      intro left hleft
      refine ⟨ht,?_,?_,?_,fun hflag => ?_,fun _ => hnot⟩
      · intro j hj
        have hjs : j ∉ schedule := fun hjs => hj ((hmem j).mpr hjs)
        have hne : j ≠ i := fun he => hjs (he ▸ hi)
        exact (Pool.moved_ne _ _ _ _ hne).trans (hp.waiting j hjs)
      · rw [hsame]
        intro j hj
        by_cases hne : j = i
        · subst hne
          rw [Pool.moved_self]
          exact hleft.trans hsuffix
        · rw [Pool.moved_ne _ _ _ _ hne]
          exact hp.inside j hj
      · rw [hsame]
        intro j hj hout
        have hne : j ≠ i := fun he => hout (he ▸ hpassed)
        exact (Pool.moved_ne _ _ _ _ hne).trans (hp.refused j ((hmem j).mp hj) hout)
      · rw [Pool.moved_shared,hset] at hflag
        cases hflag
    rcases hrun with hrun | ⟨hover,e,hrun⟩
    · rw [Pool.step_on hrest hrun]
      exact ⟨hmoved next (List.suffix_cons k next),.go _ k next t hpassed hrest hrun⟩
    · rw [Pool.step_failed hrest hrun]
      exact ⟨(hmoved [] List.nil_suffix).congr rfl rfl,.fail _ k next e t hpassed hrest hover hrun⟩

/-- The first step of a thread. -/
lemma Latch.step_new (h : Latch exec I flag finished guard first tail) {schedule : List ι}
    {p : Pool ε σ ι κ} (hp : Racing I flag guard first tail schedule p) {i : ι} (hi : i ∉ schedule) :
    Racing I flag guard first tail (schedule ++ [i]) (p.step exec i) ∧
    Moves exec finished guard first tail p i (untilRepeat schedule) (p.step exec i)
      (untilRepeat (schedule ++ [i])) := by
  have hrest := hp.waiting i hi
  have hguard := h.guard p.shared hp.holds
  have hwaiting : ∀ next, ∀ j, j ∉ schedule ++ [i] →
      (p.moved i p.shared next).rest j = guard :: first :: tail := by
    intro next j hj
    rw [List.mem_append,List.mem_singleton,not_or] at hj
    exact (Pool.moved_ne _ _ _ _ hj.2).trans (hp.waiting j hj.1)
  have hout : i ∉ untilRepeat schedule := fun hmem => hi (untilRepeat_subset schedule hmem)
  cases hflag : flag p.shared with
  | true =>
    rw [hflag] at hguard
    have hnot := hp.set hflag
    have hsame : untilRepeat (schedule ++ [i]) = untilRepeat schedule := by
      rw [untilRepeat_concat,if_neg fun hc => hnot hc.1]
    have hnot' : ¬(schedule ++ [i]).Nodup := fun hn => hnot (List.nodup_append.mp hn).1
    rw [Pool.step_off hrest hguard,hsame]
    refine ⟨⟨hp.holds,hwaiting [],?_,?_,fun hf => ?_,fun _ => hnot'⟩,.refuse _ hout⟩
    · rw [hsame]
      intro j hj
      have hne : j ≠ i := fun he => hout (he ▸ hj)
      rw [Pool.moved_ne _ _ _ _ hne]
      exact hp.inside j hj
    · rw [hsame]
      intro j hj hjout
      by_cases hne : j = i
      · subst hne
        exact Pool.moved_self ..
      · rw [List.mem_append,List.mem_singleton,or_iff_left hne] at hj
        exact (Pool.moved_ne _ _ _ _ hne).trans (hp.refused j hj hjout)
    · rw [Pool.moved_shared,hflag] at hf
      cases hf
  | false =>
    rw [hflag] at hguard
    obtain ⟨hnodup,hready⟩ := hp.unset hflag
    have hgrows : untilRepeat (schedule ++ [i]) = schedule ++ [i] := by
      rw [untilRepeat_concat,if_pos ⟨hnodup,hi⟩]
    rw [Pool.step_on hrest hguard,untilRepeat_of_nodup hnodup,hgrows]
    have hall : ∀ j ∈ schedule ++ [i],
        (p.moved i p.shared (first :: tail)).rest j = first :: tail := by
      intro j hj
      by_cases hne : j = i
      · subst hne
        exact Pool.moved_self ..
      · rw [List.mem_append,List.mem_singleton,or_iff_left hne] at hj
        exact (Pool.moved_ne _ _ _ _ hne).trans (hready j hj)
    refine ⟨⟨hp.holds,hwaiting _,?_,?_,fun _ => ⟨?_,hall⟩,fun hf => ?_⟩,.pass _ hi hguard⟩
    · rw [hgrows]
      exact fun j hj => ⟨[],hall j hj⟩
    · rw [hgrows]
      exact fun j hj hjout => absurd hj hjout
    · rw [List.nodup_append]
      refine ⟨hnodup,List.nodup_singleton i,fun a ha b hb he => ?_⟩
      rw [he,List.mem_singleton.mp hb] at ha
      exact hi ha
    · rw [Pool.moved_shared,hflag] at hf
      cases hf

lemma Latch.step (h : Latch exec I flag finished guard first tail) {schedule : List ι} {p : Pool ε σ ι κ}
    (hp : Racing I flag guard first tail schedule p) (i : ι) :
    Racing I flag guard first tail (schedule ++ [i]) (p.step exec i) ∧
    Moves exec finished guard first tail p i (untilRepeat schedule) (p.step exec i)
      (untilRepeat (schedule ++ [i])) := by
  by_cases hi : i ∈ schedule
  · exact h.step_begun hp hi
  · exact h.step_new hp hi

/-- All threads at the beginning of the program. -/
def Pool.start (s : σ) (code : List κ) : Pool ε σ ι κ := ⟨s,fun _ => code,fun _ => none⟩

lemma Racing.start {s : σ} (hs : I s) (hflag : flag s = false) :
    Racing I flag guard first tail [] (Pool.start s (guard :: first :: tail) : Pool ε σ ι κ) := by
  refine ⟨hs,fun _ _ => rfl,?_,?_,fun _ => ⟨List.nodup_nil,?_⟩,fun hf => ?_⟩
  · intro i hi
    cases hi
  · intro i hi
    cases hi
  · intro i hi
    cases hi
  · change flag s = true at hf
    rw [hflag] at hf
    cases hf

/-- A property of a pool and the threads that have passed holds of every run if no move
breaks it. -/
theorem Latch.run (h : Latch exec I flag finished guard first tail) {s : σ} (hs : I s)
    (hflag : flag s = false) (Q : Pool ε σ ι κ → List ι → Prop)
    (hstart : Q (.start s (guard :: first :: tail)) [])
    (hmoves : ∀ p passed i q passed', I p.shared → passed.Nodup →
      (∀ j ∈ passed, p.rest j <:+ first :: tail) →
      Q p passed → Moves exec finished guard first tail p i passed q passed' → Q q passed')
    (schedule : List ι) :
    Racing I flag guard first tail schedule
      ((Pool.start s (guard :: first :: tail)).run exec schedule) ∧
    Q ((Pool.start s (guard :: first :: tail)).run exec schedule) (untilRepeat schedule) := by
  induction schedule using List.reverseRecOn with
  | nil => exact ⟨.start hs hflag,hstart⟩
  | append_singleton schedule i ih =>
    obtain ⟨hracing,hq⟩ := ih
    obtain ⟨hnext,hmove⟩ := h.step hracing i
    rw [Pool.run_concat]
    exact ⟨hnext,hmoves _ _ i _ _ hracing.holds (untilRepeat_nodup schedule) hracing.inside hq hmove⟩

/-! ### What all the threads together have done -/

section sums
variable {f : List κ → ℕ} {p : Pool ε σ ι κ} {passed : List ι} {i : ι} (t : σ) (next : List κ)

omit [DecidableEq ι] in
lemma map_rest_congr {q : Pool ε σ ι κ} (h : ∀ j ∈ passed, q.rest j = p.rest j) :
    (passed.map fun j => f (q.rest j)) = passed.map fun j => f (p.rest j) :=
  List.map_congr_left fun j hj => congrArg f (h j hj)

lemma sum_moved_out (hi : i ∉ passed) : (passed.map fun j => f ((p.moved i t next).rest j)) =
    passed.map fun j => f (p.rest j) :=
  map_rest_congr fun _ hj => Pool.moved_ne _ _ _ _ fun he => hi (he ▸ hj)

lemma sum_moved (hnodup : passed.Nodup) (hi : i ∈ passed) :
    (passed.map fun j => f ((p.moved i t next).rest j)).sum + f (p.rest i) =
      (passed.map fun j => f (p.rest j)).sum + f next := by
  induction passed with
  | nil => cases hi
  | cons j js ih =>
    obtain ⟨hj,hjs⟩ := List.nodup_cons.mp hnodup
    simp only [List.map_cons,List.sum_cons]
    by_cases hij : i = j
    · subst hij
      rw [sum_moved_out t next hj,Pool.moved_self]
      omega
    · rcases List.mem_cons.mp hi with rfl | hi
      · exact absurd rfl hij
      · rw [Pool.moved_ne _ _ _ _ (Ne.symm hij)]
        have hjs' := ih hjs hi
        omega

end sums

/-- What each statement counts is counted once for every thread that has passed, as long as what a
throwing thread leaves undone counts nothing. -/
theorem Latch.counts (h : Latch exec I flag finished guard first tail) {s : σ} (hs : I s)
    (hflag : flag s = false) (μ : σ → ℕ) (c : κ → ℕ)
    (hcounts : ∀ k ∈ first :: tail, ∀ s t, I s → (exec k).run s = .ok true t → μ t = μ s + c k)
    (hfails : ∀ k next, k :: next <:+ first :: tail → ∀ s e t, I s → (exec k).run s = .error e t →
      μ t = μ s + c k ∧ (next.map c).sum = 0)
    (schedule : List ι)
    (hdone : ∀ i ∈ schedule,
      ((Pool.start s (guard :: first :: tail)).run exec schedule).rest i = []) :
    μ ((Pool.start s (guard :: first :: tail)).run exec schedule).shared =
      μ s + (untilRepeat schedule).length * ((first :: tail).map c).sum := by
  let f : List κ → ℕ := fun ks => (ks.map c).sum
  let Q : Pool ε σ ι κ → List ι → Prop := fun p passed =>
    μ p.shared + (passed.map fun j => f (p.rest j)).sum = μ s + passed.length * f (first :: tail)
  have hrun := h.run hs hflag Q (by simp [Q,Pool.start]) ?_ schedule
  · have hq := hrun.2
    have hzero : ((untilRepeat schedule).map fun j =>
        f (((Pool.start s (guard :: first :: tail)).run exec schedule).rest j)).sum = 0 := by
      rw [List.sum_eq_zero]
      intro n hn
      obtain ⟨j,hj,rfl⟩ := List.mem_map.mp hn
      rw [hdone j (untilRepeat_subset schedule hj)]
      rfl
    simp only [Q,hzero,Nat.add_zero] at hq
    exact hq
  · intro p passed i q passed' hI hnodup hinside hq hmove
    cases hmove with
    | pass hi _ =>
      simp only [Q,List.map_append,List.sum_append,List.length_append,Pool.moved_shared,
        sum_moved_out _ _ hi] at hq ⊢
      simp only [List.map_cons,List.map_nil,List.sum_cons,List.sum_nil,Pool.moved_self,
        List.length_singleton]
      rw [Nat.add_mul]
      omega
    | refuse hi =>
      simp only [Q,Pool.moved_shared,sum_moved_out _ _ hi] at hq ⊢
      exact hq
    | go k next t hi hrest hrun =>
      have hsum := sum_moved (f := f) (p := p) t next hnodup hi
      have hk : k ∈ first :: tail := (hinside i hi).mem (by rw [hrest]; exact List.mem_cons_self)
      have hmu := hcounts k hk p.shared t hI hrun
      have hhead : f (k :: next) = c k + f next := by simp [f]
      rw [hrest,hhead] at hsum
      simp only [Q,Pool.moved_shared] at hq ⊢
      omega
    | fail k next e t hi hrest _ hrun =>
      have hsum := sum_moved (f := f) (p := p) t [] hnodup hi
      have hsuffix := hinside i hi
      rw [hrest] at hsuffix
      obtain ⟨hmu,hleft⟩ := hfails k next hsuffix p.shared e t hI hrun
      have hhead : f (k :: next) = c k := by simp [f,hleft]
      have hnil : f [] = 0 := rfl
      rw [hrest,hhead,hnil] at hsum
      simp only [Q,Pool.failed_shared,Pool.failed_rest] at hq ⊢
      omega
    | rest => exact hq

/-- A thread that alone has passed leaves what it leaves without the others. -/
theorem Latch.alone (h : Latch exec I flag finished guard first tail) {s : σ} (hs : I s)
    (hflag : flag s = false) (schedule : List ι)
    (hdone : ∀ i ∈ schedule,
      ((Pool.start s (guard :: first :: tail)).run exec schedule).rest i = [])
    (halone : (untilRepeat schedule).length = 1) :
    ((Pool.start s (guard :: first :: tail)).run exec schedule).shared =
      final ((sequential exec (guard :: first :: tail)).run s) := by
  let whole := (sequential exec (guard :: first :: tail)).run s
  let Q : Pool ε σ ι κ → List ι → Prop := fun p passed => (passed = [] → p.shared = s) ∧
    ∀ i, passed = [i] → final ((sequential exec (p.rest i)).run p.shared) = final whole
  have hrun := h.run hs hflag Q ⟨fun _ => rfl,fun _ hi => by cases hi⟩ ?_ schedule
  · obtain ⟨i,hi⟩ := List.length_eq_one_iff.mp halone
    have hwhole := hrun.2.2 i hi
    rw [hdone i (untilRepeat_subset schedule (by rw [hi]; exact List.mem_singleton_self i))] at hwhole
    change _ = final whole
    rw [← hwhole]
    rfl
  · intro p passed i q passed' _ _ _ hq hmove
    obtain ⟨hnone,hone⟩ := hq
    cases hmove with
    | pass hi hguard =>
      refine ⟨fun hnil => absurd hnil (by simp),fun j hj => ?_⟩
      obtain ⟨rfl,hij⟩ := List.append_eq_singleton_iff.mp hj |>.resolve_right (by simp)
      obtain rfl := List.singleton_inj.mp hij
      have hshared := hnone rfl
      rw [hshared] at hguard
      simp only [Pool.moved_self,Pool.moved_shared,hshared,whole]
      simp [sequential,hguard]
    | refuse hi =>
      refine ⟨hnone,fun j hj => ?_⟩
      have hne : j ≠ i := by
        rintro rfl
        exact hi (by rw [hj]; exact List.mem_singleton_self j)
      rw [Pool.moved_ne _ _ _ _ hne]
      exact hone j hj
    | go k next t hi hrest hstep =>
      refine ⟨fun hnil => ?_,fun j hj => ?_⟩
      · rw [hnil] at hi
        cases hi
      · have hij : i = j := by rwa [hj,List.mem_singleton] at hi
        subst hij
        have hbefore := hone i hj
        rw [hrest] at hbefore
        rw [← hbefore]
        simp [sequential,hstep]
    | fail k next e t hi hrest _ hstep =>
      refine ⟨fun hnil => ?_,fun j hj => ?_⟩
      · rw [hnil] at hi
        cases hi
      · have hij : i = j := by rwa [hj,List.mem_singleton] at hi
        subst hij
        have hbefore := hone i hj
        rw [hrest] at hbefore
        rw [← hbefore,Pool.failed_shared,Pool.failed_rest,Pool.moved_self]
        simp [sequential,hstep]
    | rest => exact ⟨hnone,hone⟩

/-- Effects of which the order does not matter, nor whether one of them comes twice. -/
structure Settling (effect : κ → τ → τ) : Prop where
  comm : ∀ j k x, effect j (effect k x) = effect k (effect j x)
  idem : ∀ k x, effect k (effect k x) = effect k x

omit [DecidableEq ι] in
lemma Settling.absorb {effect : κ → τ → τ} (h : Settling effect) {k : κ} {ks : List κ} (hk : k ∈ ks)
    (x : τ) : effect k (ks.foldl (fun x k => effect k x) x) = ks.foldl (fun x k => effect k x) x := by
  have hpush : ∀ (ks : List κ) x, effect k (ks.foldl (fun x k => effect k x) x) =
      ks.foldl (fun x k => effect k x) (effect k x) := by
    intro ks
    induction ks with
    | nil => exact fun _ => rfl
    | cons j js ih =>
      intro x
      simp only [List.foldl_cons]
      rw [ih,h.comm]
  induction ks generalizing x with
  | nil => cases hk
  | cons j js ih =>
    rcases List.mem_cons.mp hk with rfl | hk
    · simp only [List.foldl_cons]
      rw [hpush,h.idem]
    · exact ih hk (effect j x)

/-- However many threads have passed, they leave together what one of them would leave. -/
theorem Latch.settles (h : Latch exec I flag finished guard first tail) {s : σ} (hs : I s)
    (hflag : flag s = false) (hfinished : finished s = false) (π : σ → τ) {effect : κ → τ → τ}
    (heffect : Settling effect)
    (hacts : ∀ k ∈ first :: tail, ∀ s, I s → π (final ((exec k).run s)) = effect k (π s))
    (schedule : List ι) (hne : schedule ≠ [])
    (hdone : ∀ i ∈ schedule,
      ((Pool.start s (guard :: first :: tail)).run exec schedule).rest i = []) :
    π ((Pool.start s (guard :: first :: tail)).run exec schedule).shared =
      (first :: tail).foldl (fun x k => effect k x) (π s) := by
  let after : List κ → τ := fun ks => ks.foldl (fun x k => effect k x) (π s)
  let Q : Pool ε σ ι κ → List ι → Prop := fun p passed => ∃ pre suf, first :: tail = pre ++ suf ∧
    π p.shared = after pre ∧ (finished p.shared = true → suf = []) ∧ ∀ i ∈ passed, suf <:+ p.rest i
  have hbegun : Q (Pool.start s (guard :: first :: tail)) [] := by
    refine ⟨[],first :: tail,rfl,rfl,fun hf => ?_,fun _ hi => by cases hi⟩
    change finished s = true at hf
    rw [hfinished] at hf
    cases hf
  have hrun := h.run hs hflag Q hbegun ?_ schedule
  · obtain ⟨pre,suf,hcode,hpre,-,hsuf⟩ := hrun.2
    obtain ⟨i,is,rfl⟩ := List.exists_cons_of_ne_nil hne
    have hi : i ∈ untilRepeat (i :: is) := List.mem_cons_self
    have hnil := hsuf i hi
    rw [hdone i List.mem_cons_self,List.suffix_nil] at hnil
    rw [hnil,List.append_nil] at hcode
    rw [hpre,hcode]
  · rintro p passed i q passed' hI - hinside ⟨pre,suf,hcode,hpre,hend,hsuf⟩ hmove
    have hleft : ∀ t left, suf <:+ left → ∀ j ∈ passed, suf <:+ (p.moved i t left).rest j := by
      intro t left hleft j hj
      by_cases hij : j = i
      · subst hij
        rwa [Pool.moved_self]
      · rw [Pool.moved_ne _ _ _ _ hij]
        exact hsuf j hj
    cases hmove with
    | pass hi _ =>
      refine ⟨pre,suf,hcode,hpre,hend,fun j hj => ?_⟩
      by_cases hij : j = i
      · subst hij
        rw [Pool.moved_self,hcode]
        exact List.suffix_append _ _
      · rw [Pool.moved_ne _ _ _ _ hij]
        rw [List.mem_append,List.mem_singleton,or_iff_left hij] at hj
        exact hsuf j hj
    | refuse hi =>
      refine ⟨pre,suf,hcode,hpre,hend,fun j hj => ?_⟩
      have hij : j ≠ i := fun he => hi (he ▸ hj)
      rw [Pool.moved_ne _ _ _ _ hij]
      exact hsuf j hj
    | go k next t hi hrest hstep =>
      have hinside_i := hinside i hi
      have hsuf_i := hsuf i hi
      rw [hrest] at hinside_i hsuf_i
      have hk : k ∈ first :: tail := hinside_i.mem List.mem_cons_self
      have hpi := hacts k hk p.shared hI
      rw [hstep,final_ok,hpre] at hpi
      have hlast := h.last k next hinside_i p.shared t hI hstep
      -- either the thread is the first to come this far, or another has done this before
      rcases List.suffix_cons_iff.mp hsuf_i with rfl | hbehind
      · refine ⟨pre ++ [k],next,by simpa using hcode,?_,fun hf => ?_,fun j hj => ?_⟩
        · rw [Pool.moved_shared,hpi]
          simp [after]
        · exact (hlast hf).resolve_left fun hbefore => List.cons_ne_nil k next (hend hbefore)
        · by_cases hij : j = i
          · subst hij
            rw [Pool.moved_self]
          · rw [Pool.moved_ne _ _ _ _ hij]
            exact (List.suffix_cons k next).trans (hsuf j hj)
      · have hkpre : k ∈ pre := by
          obtain ⟨a,ha⟩ := hinside_i
          obtain ⟨b,hb⟩ := hbehind
          have hsplit : pre ++ suf = (a ++ k :: b) ++ suf := by
            rw [← hcode,← ha,← hb]
            simp
          rw [List.append_cancel_right hsplit]
          simp
        refine ⟨pre,suf,hcode,?_,fun hf => ?_,hleft t next hbehind⟩
        · rw [Pool.moved_shared,hpi]
          exact heffect.absorb hkpre (π s)
        · rcases hlast hf with hbefore | rfl
          · exact hend hbefore
          · exact List.suffix_nil.mp hbehind
    | fail k next e t hi hrest hover hstep =>
      have hinside_i := hinside i hi
      rw [hrest] at hinside_i
      have hk : k ∈ first :: tail := hinside_i.mem List.mem_cons_self
      have hpi := hacts k hk p.shared hI
      rw [hstep,final_error,hpre] at hpi
      obtain rfl := hend hover
      rw [List.append_nil] at hcode
      refine ⟨pre,[],by rw [hcode,List.append_nil],?_,fun _ => rfl,hleft t [] List.nil_suffix⟩
      rw [Pool.failed_shared,hpi]
      exact heffect.absorb (hcode ▸ hk) (π s)
    | rest => exact ⟨pre,suf,hcode,hpre,hend,hsuf⟩

/-- What is thrown is thrown behind a thread that has come to the end of the program. -/
structure Survived (finished : σ → Bool) (E : ε → Prop) (p : Pool ε σ ι κ) (passed : List ι) :
    Prop where
  survivor : finished p.shared = true ∨ (∃ i, p.thrown i ≠ none) →
    ∃ i ∈ passed, p.rest i = [] ∧ p.thrown i = none
  ended : ∀ i ∈ passed, p.thrown i ≠ none → p.rest i = []
  outside : ∀ i, i ∉ passed → p.thrown i = none
  kind : ∀ i e, p.thrown i = some e → E e

/-- Not every thread that has passed throws. -/
theorem Latch.survives (h : Latch exec I flag finished guard first tail) {s : σ} (hs : I s)
    (hflag : flag s = false) (hfinished : finished s = false) {E : ε → Prop}
    (hthrows : ∀ k ∈ first :: tail, ∀ s e t, I s → (exec k).run s = .error e t → E e)
    (schedule : List ι) :
    Survived finished E ((Pool.start s (guard :: first :: tail)).run exec schedule)
      (untilRepeat schedule) := by
  refine (h.run hs hflag (Survived finished E) ?_ ?_ schedule).2
  · refine ⟨?_,fun _ _ hthrown => absurd rfl hthrown,fun _ _ => rfl,fun _ _ he => nomatch he⟩
    rintro (hf | ⟨i,hi⟩)
    · change finished s = true at hf
      rw [hfinished] at hf
      cases hf
    · exact absurd rfl hi
  · intro p passed i q passed' hI _ hinside hq hmove
    obtain ⟨hsurvivor,hended,hout,hkind⟩ := hq
    cases hmove with
    | pass hi _ =>
      refine ⟨fun hlate => ?_,fun j hj hthrown => ?_,fun j hj => ?_,hkind⟩
      · obtain ⟨j,hj,hrest,hnone⟩ := hsurvivor hlate
        have hne : j ≠ i := fun he => hi (he ▸ hj)
        exact ⟨j,List.mem_append_left _ hj,(Pool.moved_ne _ _ _ _ hne).trans hrest,hnone⟩
      · have hne : j ≠ i := fun he => hthrown (hout j (he ▸ hi))
        rw [List.mem_append,List.mem_singleton,or_iff_left hne] at hj
        exact (Pool.moved_ne _ _ _ _ hne).trans (hended j hj hthrown)
      · exact hout j fun hjp => hj (List.mem_append_left _ hjp)
    | refuse hi =>
      have hrest : ∀ j ∈ passed, (p.moved i p.shared []).rest j = p.rest j := fun j hj =>
        Pool.moved_ne _ _ _ _ fun he => hi (he ▸ hj)
      refine ⟨fun hlate => ?_,fun j hj hthrown => ?_,hout,hkind⟩
      · obtain ⟨j,hj,hdone,hnone⟩ := hsurvivor hlate
        exact ⟨j,hj,(hrest j hj).trans hdone,hnone⟩
      · exact (hrest j hj).trans (hended j hj hthrown)
    | go k next t hi hrest hrun =>
      have hsuffix := hinside i hi
      rw [hrest] at hsuffix
      have hclean : p.thrown i = none := by
        by_contra hthrown
        rw [hended i hi hthrown] at hrest
        cases hrest
      have hkept : (∃ j ∈ passed, p.rest j = [] ∧ p.thrown j = none) →
          ∃ j ∈ passed, (p.moved i t next).rest j = [] ∧ (p.moved i t next).thrown j = none := by
        rintro ⟨j,hj,hdone,hnone⟩
        have hne : j ≠ i := by
          rintro rfl
          rw [hrest] at hdone
          cases hdone
        exact ⟨j,hj,(Pool.moved_ne _ _ _ _ hne).trans hdone,hnone⟩
      refine ⟨fun hlate => ?_,fun j hj hthrown => ?_,hout,hkind⟩
      · rcases hlate with hf | hthrown
        · rcases h.last k next hsuffix p.shared t hI hrun hf with hbefore | rfl
          · exact hkept (hsurvivor (.inl hbefore))
          · exact ⟨i,hi,Pool.moved_self ..,hclean⟩
        · exact hkept (hsurvivor (.inr hthrown))
      · have hne : j ≠ i := fun he => hthrown (he ▸ hclean)
        exact (Pool.moved_ne _ _ _ _ hne).trans (hended j hj hthrown)
    | fail k next e t hi hrest hover hrun =>
      have hk : k ∈ first :: tail := (hinside i hi).mem (by rw [hrest]; exact List.mem_cons_self)
      refine ⟨fun _ => ?_,fun j hj hthrown => ?_,fun j hj => ?_,fun j e' he' => ?_⟩
      · obtain ⟨j,hj,hdone,hnone⟩ := hsurvivor (.inl hover)
        have hne : j ≠ i := by
          rintro rfl
          rw [hrest] at hdone
          cases hdone
        refine ⟨j,hj,?_,(Pool.failed_ne _ _ _ _ hne).trans hnone⟩
        rw [Pool.failed_rest]
        exact (Pool.moved_ne _ _ _ _ hne).trans hdone
      · rw [Pool.failed_rest]
        by_cases hne : j = i
        · subst hne
          exact Pool.moved_self ..
        · rw [Pool.failed_ne _ _ _ _ hne] at hthrown
          exact (Pool.moved_ne _ _ _ _ hne).trans (hended j hj hthrown)
      · have hne : j ≠ i := fun he => hj (he ▸ hi)
        exact (Pool.failed_ne _ _ _ _ hne).trans (hout j hj)
      · by_cases hne : j = i
        · subst hne
          rw [Pool.failed_self] at he'
          obtain rfl := Option.some.inj he'
          exact hthrows k hk p.shared e t hI hrun
        · rw [Pool.failed_ne _ _ _ _ hne] at he'
          exact hkind j e' he'
    | rest => exact ⟨hsurvivor,hended,hout,hkind⟩

/-- One of them returns. -/
lemma Survived.returns {E : ε → Prop} {p : Pool ε σ ι κ} {schedule : List ι}
    (h : Survived finished E p (untilRepeat schedule)) (hne : schedule ≠ []) :
    ∃ i ∈ untilRepeat schedule, p.thrown i = none := by
  obtain ⟨i,is,rfl⟩ := List.exists_cons_of_ne_nil hne
  by_cases hi : p.thrown i = none
  · exact ⟨i,List.mem_cons_self,hi⟩
  · obtain ⟨j,hj,-,hnone⟩ := h.survivor (.inr ⟨i,hi⟩)
    exact ⟨j,hj,hnone⟩

/-- What one thread by itself does, by induction over the statements it has left. -/
lemma Latch.sequential_induct (h : Latch exec I flag finished guard first tail)
    (Q : List κ → σ → Prop) (hnil : ∀ s, I s → Q [] s)
    (hcons : ∀ k next, k :: next <:+ first :: tail → ∀ s t, I s → finished s = false →
      (exec k).run s = .ok true t → Q next t → Q (k :: next) s) :
    ∀ ks, ks <:+ first :: tail → ∀ s, I s → (finished s = true → ks = []) → Q ks s := by
  intro ks hks
  induction ks with
  | nil => exact fun s hs _ => hnil s hs
  | cons k next ih =>
    intro s hs hend
    have hrunning : finished s = false :=
      Bool.eq_false_of_not_eq_true fun hf => List.cons_ne_nil k next (hend hf)
    obtain ⟨t,ht,-,hrun⟩ := h.go k (hks.mem List.mem_cons_self) s hs
    have hok : (exec k).run s = .ok true t := hrun.resolve_right fun hover => by
      rw [hrunning] at hover
      cases hover.1
    refine hcons k next hks s t hs hrunning hok (ih ((List.suffix_cons k next).trans hks) t ht ?_)
    intro hf
    refine (h.last k next hks s t hs hok hf).resolve_left fun hbefore => ?_
    rw [hrunning] at hbefore
    cases hbefore

/-- One thread by itself leaves the effects of all statements. -/
lemma Latch.sequential_settles (h : Latch exec I flag finished guard first tail) {s : σ} (hs : I s)
    (hflag : flag s = false) (hfinished : finished s = false) (π : σ → τ) {effect : κ → τ → τ}
    (hacts : ∀ k ∈ first :: tail, ∀ s, I s → π (final ((exec k).run s)) = effect k (π s)) :
    π (final ((sequential exec (guard :: first :: tail)).run s)) =
      (first :: tail).foldl (fun x k => effect k x) (π s) := by
  have hbehind := h.sequential_induct
    (fun ks s => π (final ((sequential exec ks).run s)) = ks.foldl (fun x k => effect k x) (π s))
    (fun _ _ => rfl) ?_ (first :: tail) (List.suffix_refl _) s hs
  · have hguard := h.guard s hs
    rw [hflag] at hguard
    rw [← hbehind fun hf => by rw [hfinished] at hf; cases hf]
    simp [sequential,hguard]
  · intro k next hks s t hs _ hrun hnext
    have hk := hacts k (hks.mem List.mem_cons_self) s hs
    rw [hrun,final_ok] at hk
    rw [List.foldl_cons,← hk,← hnext]
    simp [sequential,hrun]

/-- One thread by itself never meets the state in which a statement may throw, so it does what
it does where none ever throws. -/
lemma Latch.sequential_congr (h : Latch exec I flag finished guard first tail) {s : σ} (hs : I s)
    (hflag : flag s = false) (hfinished : finished s = false) {exec' : κ → EStateM ε σ Bool}
    (hsame : ∀ k ∈ guard :: first :: tail, ∀ s, I s → finished s = false →
      (exec' k).run s = (exec k).run s) :
    (sequential exec' (guard :: first :: tail)).run s =
      (sequential exec (guard :: first :: tail)).run s := by
  have hbehind := h.sequential_induct
    (fun ks s => (sequential exec' ks).run s = (sequential exec ks).run s) (fun _ _ => rfl) ?_
    (first :: tail) (List.suffix_refl _) s hs
  · have hguard := h.guard s hs
    have hguard' := (hsame guard List.mem_cons_self s hs hfinished).trans hguard
    rw [hflag] at hguard hguard'
    have htail := hbehind fun hf => by rw [hfinished] at hf; cases hf
    simpa [sequential,hguard,hguard'] using htail
  · intro k next hks s t hs hrunning hrun hnext
    have hk : k ∈ guard :: first :: tail := List.mem_cons_of_mem _ (hks.mem List.mem_cons_self)
    have hrun' := (hsame k hk s hs hrunning).trans hrun
    simp [sequential,hrun,hrun',hnext]

end racing

end ZenMedia.Interleaving
