import Mathlib

/-! Transducers that answer every input with a word, and automata that read such words.
An automaton that follows a transducer word by word reads exactly its outputs. -/
namespace ZenMedia.Transduction
variable {σ ι ο τ : Type}

/-- Input by input the state moves and a word is put out. -/
structure Transducer (σ ι ο : Type) where
  next : σ → ι → σ
  emit : σ → ι → List ο

namespace Transducer
variable (M : Transducer σ ι ο)

def stateAfter (s : σ) (is : List ι) : σ := is.foldl M.next s

def output : σ → List ι → List ο
  | _, [] => []
  | s, i :: is => M.emit s i ++ output (M.next s i) is

lemma stateAfter_concat (s : σ) (is : List ι) (i : ι) :
    M.stateAfter s (is ++ [i]) = M.next (M.stateAfter s is) i := by
  simp [stateAfter]

lemma output_concat (s : σ) (is : List ι) (i : ι) :
    M.output s (is ++ [i]) = M.output s is ++ M.emit (M.stateAfter s is) i := by
  induction is generalizing s with
  | nil => simp [output,stateAfter]
  | cons j is ih => simp [output,stateAfter,ih]

end Transducer

/-- Where an automaton is led by a word, if it can read it. -/
def readAll (read : τ → ο → Option τ) (t : τ) (os : List ο) : Option τ := os.foldlM read t

section readAll
variable (read : τ → ο → Option τ)

@[simp] lemma readAll_nil (t : τ) : readAll read t [] = some t := rfl

lemma readAll_cons (t : τ) (o : ο) (os : List ο) :
    readAll read t (o :: os) = (read t o).bind fun u => readAll read u os := rfl

lemma readAll_append (t : τ) (os ps : List ο) :
    readAll read t (os ++ ps) = (readAll read t os).bind fun u => readAll read u ps :=
  List.foldlM_append

/-- The start of a readable word is readable. -/
lemma readAll_prefix {t u : τ} {os ps : List ο} (hps : readAll read t ps = some u)
    (hos : os <+: ps) : ∃ v, readAll read t os = some v := by
  obtain ⟨rest,rfl⟩ := hos
  rw [readAll_append] at hps
  obtain ⟨v,hv,-⟩ := Option.bind_eq_some_iff.mp hps
  exact ⟨v,hv⟩

end readAll

/-- The automaton reads every word the transducer puts out, along `place`, and where it
reads on, the transducer can put out a beginning of it. -/
structure Reads (read : τ → ο → Option τ) (M : Transducer σ ι ο) (place : σ → τ) : Prop where
  follow : ∀ s i, readAll read (place s) (M.emit s i) = some (place (M.next s i))
  lead : ∀ s t os, os ≠ [] → readAll read (place s) os = some (place t) →
    ∃ i, M.emit s i ≠ [] ∧ M.emit s i <+: os

namespace Reads
variable {read : τ → ο → Option τ} {M : Transducer σ ι ο} {place : σ → τ}

theorem output (h : Reads read M place) (s : σ) (is : List ι) :
    readAll read (place s) (M.output s is) = some (place (M.stateAfter s is)) := by
  induction is using List.reverseRecOn with
  | nil => rfl
  | append_singleton is i ih =>
    rw [M.output_concat,M.stateAfter_concat,readAll_append,ih]
    exact h.follow _ i

/-- The outputs are the words that lead from a place of the transducer to another one. -/
theorem output_iff (h : Reads read M place) (s : σ) (os : List ο) :
    (∃ is, M.output s is = os) ↔ ∃ t, readAll read (place s) os = some (place t) := by
  constructor
  · rintro ⟨is,rfl⟩
    exact ⟨_,h.output s is⟩
  · rintro ⟨t,hread⟩
    -- the word gets shorter by what the first input puts out
    induction hn : os.length using Nat.strong_induction_on generalizing s os with
    | _ n ih =>
      by_cases hos : os = []
      · exact ⟨[],hos.symm⟩
      · obtain ⟨i,hne,rest,rfl⟩ := h.lead s t os hos hread
        have hpos : 0 < (M.emit s i).length := List.length_pos_of_ne_nil hne
        rw [readAll_append,h.follow] at hread
        rw [List.length_append] at hn
        obtain ⟨is,his⟩ := ih rest.length (by omega) (M.next s i) rest hread rfl
        exact ⟨i :: is,by rw [Transducer.output,his]⟩

end Reads

end ZenMedia.Transduction
