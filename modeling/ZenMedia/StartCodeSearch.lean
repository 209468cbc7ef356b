import ZenMedia.ByteStuffing

/-! The search for a start code by which libavformat cuts a stream into NAL units. It reads
four bytes at a time and looks closer only where one of them is zero. -/
namespace ZenMedia.Avc
open ByteStuffing

/-- `p[i]`; the search never looks behind the end of its bytes. -/
def byteAt (bytes : List UInt8) (i : ℕ) : UInt8 := bytes.getD i 0

def isStart (bytes : List UInt8) (p : ℕ) : Bool :=
  byteAt bytes p = 0 && byteAt bytes (p + 1) = 0 && byteAt bytes (p + 2) = 1

/-- `for (…; p < stop; p++)`, for `n` rounds at most; the error is what the loop returns out
of the function. -/
def byteLoop (bytes : List UInt8) (stop : ℕ) : ℕ → ℕ → Except ℕ ℕ
  | 0, p => .ok p
  | n + 1, p =>
    if p < stop then
      if isStart bytes p then .error p else byteLoop bytes stop n (p + 1)
    else .ok p

/-- `*(const uint32_t*)p` on a machine that stores the least significant byte first. -/
def word (bytes : List UInt8) (p : ℕ) : BitVec 32 :=
  BitVec.ofNat 32 ((byteAt bytes p).toNat + 256 * (byteAt bytes (p + 1)).toNat +
    65536 * (byteAt bytes (p + 2)).toNat + 16777216 * (byteAt bytes (p + 3)).toNat)

/-- `(x - 0x01010101) & (~x) & 0x80808080` -/
def hasZero (x : BitVec 32) : Bool := (x - 0x01010101#32) &&& ~~~x &&& 0x80808080#32 ≠ 0#32

/-- The four places at which a start code may begin in a word with a zero. -/
def startInWord (bytes : List UInt8) (p : ℕ) : Option ℕ :=
  let b (i : ℕ) := byteAt bytes (p + i)
  if b 1 = 0 && b 0 = 0 && b 2 = 1 then some p
  else if b 1 = 0 && b 2 = 0 && b 3 = 1 then some (p + 1)
  else if b 3 = 0 && b 2 = 0 && b 4 = 1 then some (p + 2)
  else if b 3 = 0 && b 4 = 0 && b 5 = 1 then some (p + 3)
  else none

/-- `for (…; p < stop; p += 4)` -/
def wordLoop (bytes : List UInt8) (stop : ℕ) : ℕ → ℕ → Except ℕ ℕ
  | 0, p => .ok p
  | n + 1, p =>
    if p < stop then
      match (if hasZero (word bytes p) then startInWord bytes p else none) with
      | some q => .error q
      | none => wordLoop bytes stop n (p + 4)
    else .ok p

/-- `ff_avc_find_startcode_internal` of the bytes from `p` to `end`; `address` is that of `p`. -/
def findStartcodeInternal (address : ℕ) (bytes : List UInt8) : ℕ :=
  let stop := bytes.length
  let search := do
    let p ← byteLoop bytes (min (4 - address % 4) (stop - 3)) stop 0
    let p ← wordLoop bytes (stop - 6) stop p
    byteLoop bytes (stop - 3) stop p
  match search with
  | .error p => p
  | .ok _ => stop

/-- `ff_avc_find_startcode` -/
def findStartcode (address : ℕ) (bytes : List UInt8) : ℕ :=
  let out := findStartcodeInternal address bytes
  if 0 < out && out < bytes.length && byteAt bytes (out - 1) = 0 then out - 1 else out

/-! ### Looking at four bytes at a time -/

/-- The lowest zero of a word shows. -/
lemma hasZero_of_zero {b₀ b₁ b₂ b₃ : ℕ} (h₀ : b₀ < 256) (h₁ : b₁ < 256) (h₂ : b₂ < 256) (h₃ : b₃ < 256)
    (h : b₀ = 0 ∨ b₁ = 0 ∨ b₂ = 0 ∨ b₃ = 0) :
    hasZero (BitVec.ofNat 32 (b₀ + 256 * b₁ + 65536 * b₂ + 16777216 * b₃)) = true := by
  have hx : (BitVec.ofNat 32 (b₀ + 256 * b₁ + 65536 * b₂ + 16777216 * b₃)).toNat =
      b₀ + 256 * b₁ + 65536 * b₂ + 16777216 * b₃ := by
    rw [BitVec.toNat_ofNat]
    omega
  have hy : (BitVec.ofNat 32 (b₀ + 256 * b₁ + 65536 * b₂ + 16777216 * b₃) - 0x01010101#32).toNat =
      (4278124287 + (b₀ + 256 * b₁ + 65536 * b₂ + 16777216 * b₃)) % 4294967296 := by
    rw [BitVec.toNat_sub,hx]
    rfl
  rw [hasZero,decide_eq_true_eq]
  by_cases hz₀ : b₀ = 0
  · exact shows_of_bit (k := 7) rfl (by rw [hx]; omega) (by rw [hy]; omega)
  by_cases hz₁ : b₁ = 0
  · exact shows_of_bit (k := 15) rfl (by rw [hx]; omega) (by rw [hy]; omega)
  by_cases hz₂ : b₂ = 0
  · exact shows_of_bit (k := 23) rfl (by rw [hx]; omega) (by rw [hy]; omega)
  · exact shows_of_bit (k := 31) rfl (by rw [hx]; omega) (by rw [hy]; omega)

/-- A word that is passed over has no start code at its four places. -/
lemma no_start_of_hasZero {bytes : List UInt8} {p : ℕ} (h : hasZero (word bytes p) = false) (i : ℕ)
    (hi : i < 4) : isStart bytes (p + i) = false := by
  have hne (j : ℕ) (hj : j < 4) : byteAt bytes (p + j) ≠ 0 := by
    intro hzero
    have hsome : hasZero (word bytes p) = true := by
      apply hasZero_of_zero (UInt8.toNat_lt _) (UInt8.toNat_lt _) (UInt8.toNat_lt _) (UInt8.toNat_lt _)
      interval_cases j <;> simp_all
    rw [h] at hsome
    cases hsome
  unfold isStart
  simp [hne i hi]

/-- In a word that is looked at, the first start code is found. -/
lemma startInWord_some {bytes : List UInt8} {p q : ℕ} (h : startInWord bytes p = some q) :
    ∃ i < 4, q = p + i ∧ isStart bytes q = true ∧ ∀ j < i, isStart bytes (p + j) = false := by
  simp only [startInWord,Nat.add_zero,Bool.and_eq_true,decide_eq_true_eq] at h
  split_ifs at h with h₀ h₁ h₂ h₃ <;> obtain rfl := Option.some.inj h
  · exact ⟨0,by omega,rfl,by simp [isStart,h₀],by simp⟩
  · refine ⟨1,by omega,rfl,by simp [isStart,Nat.add_assoc,h₁],fun j hj => ?_⟩
    interval_cases j
    simp [isStart,h₁]
  · refine ⟨2,by omega,rfl,by simp [isStart,Nat.add_assoc,h₂],fun j hj => ?_⟩
    interval_cases j <;> simp [isStart,Nat.add_assoc,h₂]
  · refine ⟨3,by omega,rfl,by simp [isStart,Nat.add_assoc,h₃],fun j hj => ?_⟩
    interval_cases j <;> simp [isStart,Nat.add_assoc,h₃]
    grind

lemma startInWord_none {bytes : List UInt8} {p : ℕ} (h : startInWord bytes p = none) (i : ℕ)
    (hi : i < 4) : isStart bytes (p + i) = false := by
  simp only [startInWord,Nat.add_zero,Bool.and_eq_true,decide_eq_true_eq] at h
  split_ifs at h with h₀ h₁ h₂ h₃
  interval_cases i <;> (simp [isStart,Nat.add_assoc]; grind)

/-! ### The loops -/

/-- No start code from `p` up to `q`. -/
def Clear (bytes : List UInt8) (p q : ℕ) : Prop := ∀ i, p ≤ i → i < q → isStart bytes i = false

lemma Clear.refl (bytes : List UInt8) (p : ℕ) : Clear bytes p p := by
  intro i hi hip
  omega

lemma Clear.trans {bytes : List UInt8} {p q r : ℕ} (h : Clear bytes p q) (k : Clear bytes q r) :
    Clear bytes p r := by
  intro i hi hir
  by_cases hq : i < q
  · exact h i hi hq
  · exact k i (not_lt.mp hq) hir

/-- What a loop from `p` to `stop` finds: the first start code, before `limit`, or none. -/
def Searched (bytes : List UInt8) (stop limit p : ℕ) : Except ℕ ℕ → Prop
  | .error q => p ≤ q ∧ q < limit ∧ isStart bytes q = true ∧ Clear bytes p q
  | .ok q => p ≤ q ∧ stop ≤ q ∧ Clear bytes p q

lemma Searched.extend {bytes : List UInt8} {stop limit p p' : ℕ} {r : Except ℕ ℕ} (hp : p ≤ p')
    (hclear : Clear bytes p p') (h : Searched bytes stop limit p' r) : Searched bytes stop limit p r := by
  cases r with
  | error q => exact ⟨hp.trans h.1,h.2.1,h.2.2.1,hclear.trans h.2.2.2⟩
  | ok q => exact ⟨hp.trans h.1,h.2.1,hclear.trans h.2.2⟩

lemma byteLoop_searched (bytes : List UInt8) {stop limit : ℕ} (hlimit : stop ≤ limit) (n p : ℕ)
    (hn : stop ≤ p + n) : Searched bytes stop limit p (byteLoop bytes stop n p) := by
  induction n generalizing p with
  | zero => exact ⟨le_refl p,hn,Clear.refl bytes p⟩
  | succ n ih =>
    rw [byteLoop]
    split_ifs with hp hstart
    · exact ⟨le_refl p,by omega,hstart,Clear.refl bytes p⟩
    · refine (ih _ (by omega)).extend (Nat.le_succ p) fun i hi hip => ?_
      have hpi : i = p := by omega
      rw [hpi]
      exact Bool.eq_false_of_not_eq_true hstart
    · exact ⟨le_refl p,not_lt.mp hp,Clear.refl bytes p⟩

lemma wordLoop_searched (bytes : List UInt8) {stop limit : ℕ} (hlimit : 0 < stop → stop + 3 ≤ limit)
    (n p : ℕ) (hn : stop ≤ p + n) : Searched bytes stop limit p (wordLoop bytes stop n p) := by
  induction n generalizing p with
  | zero => exact ⟨le_refl p,hn,Clear.refl bytes p⟩
  | succ n ih =>
    rw [wordLoop]
    split_ifs with hp hzero
    · cases hword : startInWord bytes p with
      | some q =>
        obtain ⟨i,hi,rfl,hstart,hbefore⟩ := startInWord_some hword
        refine ⟨Nat.le_add_right p i,by omega,hstart,fun j hj hjq => ?_⟩
        obtain ⟨k,rfl⟩ := Nat.exists_eq_add_of_le hj
        exact hbefore k (by omega)
      | none =>
        refine (ih _ (by omega)).extend (Nat.le_add_right p 4) fun j hj hjq => ?_
        obtain ⟨k,rfl⟩ := Nat.exists_eq_add_of_le hj
        exact startInWord_none hword k (by omega)
    · refine (ih _ (by omega)).extend (Nat.le_add_right p 4) fun j hj hjq => ?_
      obtain ⟨k,rfl⟩ := Nat.exists_eq_add_of_le hj
      exact no_start_of_hasZero (Bool.eq_false_of_not_eq_true hzero) k (by omega)
    · exact ⟨le_refl p,not_lt.mp hp,Clear.refl bytes p⟩

/-- One loop after the other. -/
lemma Searched.bind {bytes : List UInt8} {stop stop' limit p : ℕ} {r : Except ℕ ℕ} {f : ℕ → Except ℕ ℕ}
    (h : Searched bytes stop limit p r) (hf : ∀ q, Searched bytes stop' limit q (f q)) :
    Searched bytes stop' limit p (r >>= f) := by
  cases r with
  | error q => exact h
  | ok q => exact (hf q).extend h.1 h.2.2

/-- The search finds the first start code that a byte follows, or the end. -/
lemma findStartcodeInternal_spec (address : ℕ) (bytes : List UInt8) :
    let q := findStartcodeInternal address bytes
    (q + 3 < bytes.length ∧ isStart bytes q = true ∧ Clear bytes 0 q) ∨
      (q = bytes.length ∧ Clear bytes 0 (bytes.length - 3)) := by
  have hlast (p : ℕ) : Searched bytes (bytes.length - 3) (bytes.length - 3) p _ :=
    byteLoop_searched bytes le_rfl bytes.length p (by omega)
  have hwords (p : ℕ) : Searched bytes (bytes.length - 6) (bytes.length - 3) p _ :=
    wordLoop_searched bytes (by omega) bytes.length p (by omega)
  have hfirst : Searched bytes (min (4 - address % 4) (bytes.length - 3)) (bytes.length - 3) 0 _ :=
    byteLoop_searched bytes (min_le_right _ _) bytes.length 0 (by omega)
  have hsearch := hfirst.bind fun p => (hwords p).bind hlast
  intro q
  cases hr : (do
      let p ← byteLoop bytes (min (4 - address % 4) (bytes.length - 3)) bytes.length 0
      let p ← wordLoop bytes (bytes.length - 6) bytes.length p
      byteLoop bytes (bytes.length - 3) bytes.length p) with
  | error p =>
    have hq : q = p := by simp only [q,findStartcodeInternal,hr]
    rw [hr] at hsearch
    rw [hq]
    exact .inl ⟨by have := hsearch.2.1; omega,hsearch.2.2.1,hsearch.2.2.2⟩
  | ok p =>
    have hq : q = bytes.length := by simp only [q,findStartcodeInternal,hr]
    rw [hr] at hsearch
    exact .inr ⟨hq,fun i hi hil => hsearch.2.2 i hi (lt_of_lt_of_le hil hsearch.2.1)⟩

/-! ### The search and the strings -/

lemma byteAt_cons (b : UInt8) (rest : List UInt8) (i : ℕ) : byteAt (b :: rest) (i + 1) = byteAt rest i := by
  simp [byteAt]

lemma isStart_cons (b : UInt8) (rest : List UInt8) (i : ℕ) : isStart (b :: rest) (i + 1) = isStart rest i := by
  simp only [isStart,Nat.add_right_comm i 1,byteAt_cons]

lemma isStart_zero {bytes : List UInt8} (h : 2 < bytes.length) : isStart bytes 0 = startsHere bytes := by
  rcases bytes with _ | ⟨a,_ | ⟨b,_ | ⟨c,bytes⟩⟩⟩
  · simp at h
  · simp at h
  · simp at h
  · simp [isStart,byteAt,startsHere]

lemma nextStart_spec (bytes : List UInt8) :
    (nextStart bytes + 3 < bytes.length ∧ isStart bytes (nextStart bytes) = true ∨
      nextStart bytes = bytes.length) ∧
    ∀ i < nextStart bytes, i + 3 < bytes.length → isStart bytes i = false := by
  induction bytes with
  | nil => simp [nextStart]
  | cons b rest ih =>
    obtain ⟨hend,hbefore⟩ := ih
    rw [nextStart,List.length_cons]
    split_ifs with hhere
    · simp only [Bool.and_eq_true,decide_eq_true_eq] at hhere
      refine ⟨.inl ⟨by omega,?_⟩,by simp⟩
      rw [isStart_zero (by simp; omega)]
      exact hhere.1
    · refine ⟨?_,fun i hi hlen => ?_⟩
      · rw [isStart_cons]
        rcases hend with ⟨hlen,hstart⟩ | heq
        · exact .inl ⟨by omega,hstart⟩
        · exact .inr (by omega)
      · rcases i with _ | i
        · rw [isStart_zero (by simp; omega)]
          simp only [Bool.and_eq_true,decide_eq_true_eq,not_and,not_lt] at hhere
          by_contra hstart
          have := hhere (by simpa using hstart)
          omega
        · rw [isStart_cons]
          exact hbefore i (by omega) (by omega)

/-- A search that finds a start code with none before it, or that finds none and there is none. -/
lemma eq_nextStart {bytes : List UInt8} {q : ℕ}
    (h : (q + 3 < bytes.length ∧ isStart bytes q = true ∧ Clear bytes 0 q) ∨
      (q = bytes.length ∧ Clear bytes 0 (bytes.length - 3))) : q = nextStart bytes := by
  obtain ⟨hend,hbefore⟩ := nextStart_spec bytes
  have hle := nextStart_le bytes
  rcases h with ⟨hlen,hstart,hclear⟩ | ⟨heq,hclear⟩
  · rcases lt_trichotomy q (nextStart bytes) with hlt | heq | hgt
    · rw [hbefore _ hlt hlen] at hstart
      cases hstart
    · exact heq
    · rcases hend with ⟨-,hnext⟩ | hnext
      · rw [hclear _ (Nat.zero_le _) hgt] at hnext
        cases hnext
      · omega
  · rcases hend with ⟨hlen,hnext⟩ | hnext
    · rw [hclear _ (Nat.zero_le _) (by omega)] at hnext
      cases hnext
    · rw [heq,hnext]

/-- Whatever the address, the search by words finds what the plain one finds. -/
theorem findStartcodeInternal_eq (address : ℕ) (bytes : List UInt8) :
    findStartcodeInternal address bytes = nextStart bytes :=
  eq_nextStart (findStartcodeInternal_spec address bytes)

end ZenMedia.Avc
