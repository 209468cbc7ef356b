import Mathlib

/-! `getLibOptions`: the argument list for libVLC that a set of stored preferences
gives on a device. Both player classes have the same code. -/
namespace ZenMedia

/-! ### `Integer.parseInt` -/

/-- The zeros of the decimal digit blocks of the basic multilingual plane. -/
def digitZeros : List ℕ :=
  [0x0030,0x0660,0x06F0,0x07C0,0x0966,0x09E6,0x0A66,0x0AE6,0x0B66,0x0BE6,0x0C66,0x0CE6,0x0D66,
    0x0DE6,0x0E50,0x0ED0,0x0F20,0x1040,0x1090,0x17E0,0x1810,0x1946,0x19D0,0x1A80,0x1A90,0x1B50,
    0x1BB0,0x1C40,0x1C50,0xA620,0xA8D0,0xA900,0xA9D0,0xA9F0,0xAA50,0xABF0,0xFF10]

/-- `Character.digit(c, 10)` -/
def digit (c : Char) : Option ℕ :=
  (digitZeros.find? fun z => z ≤ c.toNat && c.toNat < z+10).map fun z => c.toNat - z

def parseDigits : List Char → Option ℕ
  | [] => none
  | cs => cs.foldlM (fun n c => (digit c).map fun d => 10*n + d) 0

def inIntRange (n : ℤ) : Option ℤ := if -2^31 ≤ n ∧ n < 2^31 then some n else none

/-- `none` for a `NumberFormatException`. -/
def parseInt (s : String) : Option ℤ :=
  match s.toList with
  | '-' :: cs => (parseDigits cs).bind fun n => inIntRange (-n)
  | '+' :: cs => (parseDigits cs).bind fun n => inIntRange n
  | cs => (parseDigits cs).bind fun n => inIntRange n

/-! ### The preferences and the device -/

/-- The stored values; `none` where nothing is stored. -/
structure SharedPreferences where
  enable_time_stretching_audio : Option Bool := none
  subtitle_text_encoding : Option String := none
  enable_frame_skip : Option Bool := none
  chroma_format : Option String := none
  enable_verbose_mode : Option Bool := none
  aout : Option String := none
  deblocking : Option String := none
  network_caching_value : Option ℤ := none
  deriving DecidableEq, Repr

inductive AudioOutput
  | OPENSLES
  | AUDIOTRACK
  | ALL
  deriving DecidableEq, Repr

structure MachineSpecs where
  hasArmV6 : Bool := false
  hasArmV7 : Bool := false
  hasMips : Bool := false
  frequency : ℚ := -1
  bogoMIPS : ℚ := -1
  processors : ℤ := 0
  deriving DecidableEq, Repr

/-- What `AndroidUtil`, `HWDecoderUtil` and `VLCUtil` say about the device. -/
structure Device where
  isGingerbreadOrLater : Bool := true
  audioOutputFromDevice : AudioOutput := .ALL
  machineSpecs : Option MachineSpecs := none
  deriving DecidableEq, Repr

def AOUT_AUDIOTRACK : ℤ := 0
def AOUT_OPENSLES : ℤ := 1
def HDMI_AUDIO_ENABLED : Bool := false

def getAout (device : Device) (aout : ℤ) : ℤ :=
  let hwaout := device.audioOutputFromDevice
  if hwaout = .AUDIOTRACK ∨ hwaout = .OPENSLES then
    if hwaout = .OPENSLES then AOUT_OPENSLES else AOUT_AUDIOTRACK
  else
    if aout = AOUT_OPENSLES then AOUT_OPENSLES else AOUT_AUDIOTRACK

def getDeblocking (device : Device) (deblocking : ℤ) : ℤ :=
  if deblocking < 0 then
    match device.machineSpecs with
    | none => deblocking
    | some m =>
      if (m.hasArmV6 && !m.hasArmV7) || m.hasMips then 4
      else if 1200 ≤ m.frequency ∧ 2 < m.processors then 1
      else if 1200 ≤ m.bogoMIPS ∧ 2 < m.processors then 1
      else 3
  else if 4 < deblocking then 3
  else deblocking

namespace SharedPreferences
variable (device : Device) (pref : SharedPreferences)

/-- The variable `chroma`. -/
def chroma : String :=
  let chroma := pref.chroma_format.getD ""
  if chroma = "YV12" ∧ device.isGingerbreadOrLater = false then "" else chroma

/-- The variable `aout`: a string that does not parse leaves -1 for `getAout`. -/
def aoutValue : ℤ := getAout device ((parseInt (pref.aout.getD "-1")).getD (-1))

/-- The variable `deblocking`: `getDeblocking` is called inside the `try` block, so a
string that does not parse leaves -1. -/
def deblockingValue : ℤ := ((parseInt (pref.deblocking.getD "-1")).map (getDeblocking device)).getD (-1)

def networkCaching : ℤ :=
  let networkCaching := pref.network_caching_value.getD 0
  if 60000 < networkCaching then 60000 else if networkCaching < 0 then 0 else networkCaching

end SharedPreferences

/-- `chroma.indexOf(0) != 0 ? chroma : "RV32"`: the first character is compared with
the character 0, which an empty string does not have. -/
def chromaOption (chroma : String) : String :=
  if chroma.toList.head? ≠ some (Char.ofNat 0) then chroma else "RV32"

def getLibOptions (device : Device) (pref : SharedPreferences) : List String :=
  let frameSkip := pref.enable_frame_skip.getD false
  let aout := pref.aoutValue device
  let networkCaching := pref.networkCaching
  [if pref.enable_time_stretching_audio.getD false then "--audio-time-stretch"
    else "--no-audio-time-stretch"] ++
  ["--avcodec-skiploopfilter",toString (pref.deblockingValue device)] ++
  ["--avcodec-skip-frame",if frameSkip then "2" else "0"] ++
  ["--avcodec-skip-idct",if frameSkip then "2" else "0"] ++
  ["--subsdec-encoding",pref.subtitle_text_encoding.getD ""] ++
  ["--stats"] ++
  (if 0 < networkCaching then ["--network-caching=" ++ toString networkCaching] else []) ++
  [if aout = AOUT_OPENSLES then "--aout=opensles"
    else if aout = AOUT_AUDIOTRACK then "--aout=android_audiotrack" else "--aout=dummy"] ++
  ["--androidwindow-chroma",chromaOption (pref.chroma device)] ++
  (if HDMI_AUDIO_ENABLED then ["--spdif","--audiotrack-audio-channels","8"] else []) ++
  [if pref.enable_verbose_mode.getD true then "-vvv" else "-vv"]

/-! ### Reading the list back -/

/-- The options whose value is the following element. -/
def takesValue (name : String) : Bool :=
  name ∈ ["--avcodec-skiploopfilter","--avcodec-skip-frame","--avcodec-skip-idct",
    "--subsdec-encoding","--androidwindow-chroma","--audiotrack-audio-channels"]

/-- The options in order, each with the element it takes. -/
def arguments : List String → List (String × Option String)
  | [] => []
  | [name] => [(name,none)]
  | name :: value :: rest =>
    if takesValue name then (name,some value) :: arguments rest
    else (name,none) :: arguments (value :: rest)

/-- The values given to an option. -/
def valuesOf (name : String) (options : List String) : List String :=
  (arguments options).filterMap fun a => if a.1 = name then a.2 else none

/-- The options that start with `--network-caching`. -/
def cachingOptions (options : List String) : List String :=
  ((arguments options).map Prod.fst).filter fun name =>
    "--network-caching".toList.isPrefixOf name.toList

lemma arguments_nil : arguments [] = [] := rfl

lemma arguments_flag {name : String} (h : takesValue name = false) (rest : List String) :
    arguments (name :: rest) = (name,none) :: arguments rest := by
  cases rest with
  | nil => rfl
  | cons value rest => rw [arguments,h]; rfl

lemma arguments_value {name : String} (h : takesValue name = true) (value : String)
    (rest : List String) :
    arguments (name :: value :: rest) = (name,some value) :: arguments rest := by
  rw [arguments,h]
  rfl

/-- No option that takes a value looks like `--network-caching`. -/
lemma takesValue_caching (s : String) : takesValue ("--network-caching=" ++ s) = false := by
  have hthird : ("--network-caching=" ++ s).toList[2]? = some 'n' := by
    rw [String.toList_append]
    rfl
  have hothers : ∀ name, takesValue name = true → name.toList[2]? ≠ some 'n' := by
    intro name hname
    simp only [takesValue,List.mem_cons,List.not_mem_nil,or_false,decide_eq_true_eq] at hname
    rcases hname with rfl | rfl | rfl | rfl | rfl | rfl <;> decide
  rw [← Bool.not_eq_true]
  intro h
  exact hothers _ h hthird

lemma isPrefixOf_caching (s : String) :
    "--network-caching".toList.isPrefixOf ("--network-caching=" ++ s).toList = true := by
  rw [String.toList_append]
  rfl

section reading
variable (device : Device) (pref : SharedPreferences)

lemma arguments_getLibOptions : arguments (getLibOptions device pref) =
    [(if pref.enable_time_stretching_audio.getD false then "--audio-time-stretch"
        else "--no-audio-time-stretch",none),
      ("--avcodec-skiploopfilter",some (toString (pref.deblockingValue device))),
      ("--avcodec-skip-frame",some (if pref.enable_frame_skip.getD false then "2" else "0")),
      ("--avcodec-skip-idct",some (if pref.enable_frame_skip.getD false then "2" else "0")),
      ("--subsdec-encoding",some (pref.subtitle_text_encoding.getD "")),("--stats",none)] ++
    (if 0 < pref.networkCaching then
      [("--network-caching=" ++ toString pref.networkCaching,none)] else []) ++
    [(if pref.aoutValue device = AOUT_OPENSLES then "--aout=opensles"
        else if pref.aoutValue device = AOUT_AUDIOTRACK then "--aout=android_audiotrack"
        else "--aout=dummy",none),
      ("--androidwindow-chroma",some (chromaOption (pref.chroma device))),
      (if pref.enable_verbose_mode.getD true then "-vvv" else "-vv",none)] := by
  have hstretch : takesValue (if pref.enable_time_stretching_audio.getD false then
      "--audio-time-stretch" else "--no-audio-time-stretch") = false := by
    split <;> decide
  have haout : takesValue (if pref.aoutValue device = AOUT_OPENSLES then "--aout=opensles"
      else if pref.aoutValue device = AOUT_AUDIOTRACK then "--aout=android_audiotrack"
      else "--aout=dummy") = false := by
    split_ifs <;> decide
  have hverbose : takesValue (if pref.enable_verbose_mode.getD true then "-vvv" else "-vv") = false := by
    split <;> decide
  have hdeblocking : takesValue "--avcodec-skiploopfilter" = true := by decide
  have hframe : takesValue "--avcodec-skip-frame" = true := by decide
  have hidct : takesValue "--avcodec-skip-idct" = true := by decide
  have hencoding : takesValue "--subsdec-encoding" = true := by decide
  have hstats : takesValue "--stats" = false := by decide
  have hchroma : takesValue "--androidwindow-chroma" = true := by decide
  unfold getLibOptions HDMI_AUDIO_ENABLED
  dsimp only
  generalize (if pref.enable_time_stretching_audio.getD false then "--audio-time-stretch"
    else "--no-audio-time-stretch") = stretch at hstretch ⊢
  generalize (if pref.aoutValue device = AOUT_OPENSLES then "--aout=opensles"
    else if pref.aoutValue device = AOUT_AUDIOTRACK then "--aout=android_audiotrack"
    else "--aout=dummy") = aout at haout ⊢
  generalize (if pref.enable_verbose_mode.getD true then "-vvv" else "-vv") = verbose at hverbose ⊢
  simp only [Bool.false_eq_true,if_false,List.cons_append,List.nil_append,List.append_assoc,
    arguments_flag hstretch,arguments_value hdeblocking,arguments_value hframe,
    arguments_value hidct,arguments_value hencoding,arguments_flag hstats]
  by_cases hcaching : 0 < pref.networkCaching
  · simp only [if_pos hcaching,List.cons_append,List.nil_append,
      arguments_flag (takesValue_caching _),arguments_flag haout,arguments_value hchroma,
      arguments_flag hverbose,arguments_nil]
  · simp only [if_neg hcaching,List.nil_append,arguments_flag haout,arguments_value hchroma,
      arguments_flag hverbose,arguments_nil]

lemma valuesOf_skiploopfilter : valuesOf "--avcodec-skiploopfilter" (getLibOptions device pref) =
    [toString (pref.deblockingValue device)] := by
  unfold valuesOf
  rw [arguments_getLibOptions]
  by_cases hcaching : 0 < pref.networkCaching <;> simp [hcaching]

lemma valuesOf_chroma : valuesOf "--androidwindow-chroma" (getLibOptions device pref) =
    [chromaOption (pref.chroma device)] := by
  unfold valuesOf
  rw [arguments_getLibOptions]
  by_cases hcaching : 0 < pref.networkCaching <;> simp [hcaching]

lemma cachingOptions_getLibOptions : cachingOptions (getLibOptions device pref) =
    if 0 < pref.networkCaching then ["--network-caching=" ++ toString pref.networkCaching] else [] := by
  have hstretch : "--network-caching".toList.isPrefixOf
      (if pref.enable_time_stretching_audio.getD false then "--audio-time-stretch"
        else "--no-audio-time-stretch").toList = false := by
    split <;> decide
  have haout : "--network-caching".toList.isPrefixOf
      (if pref.aoutValue device = AOUT_OPENSLES then "--aout=opensles"
        else if pref.aoutValue device = AOUT_AUDIOTRACK then "--aout=android_audiotrack"
        else "--aout=dummy").toList = false := by
    split_ifs <;> decide
  have hverbose : "--network-caching".toList.isPrefixOf
      (if pref.enable_verbose_mode.getD true then "-vvv" else "-vv").toList = false := by
    split <;> decide
  have hothers : ∀ name ∈ ["--avcodec-skiploopfilter","--avcodec-skip-frame",
      "--avcodec-skip-idct","--subsdec-encoding","--stats","--androidwindow-chroma"],
      "--network-caching".toList.isPrefixOf name.toList = false := by decide
  simp only [List.forall_mem_cons] at hothers
  obtain ⟨h1,h2,h3,h4,h5,h6,-⟩ := hothers
  unfold cachingOptions
  rw [arguments_getLibOptions]
  by_cases hcaching : 0 < pref.networkCaching
  · simp only [if_pos hcaching,List.map_append,List.map_cons,List.map_nil,List.filter_append,
      List.filter_cons,List.filter_nil,hstretch,haout,hverbose,h1,h2,h3,h4,h5,h6,
      isPrefixOf_caching,if_true,Bool.false_eq_true,if_false,List.nil_append,List.append_nil]
  · simp only [if_neg hcaching,List.map_append,List.map_cons,List.map_nil,List.filter_append,
      List.filter_cons,List.filter_nil,hstretch,haout,hverbose,h1,h2,h3,h4,h5,h6,
      Bool.false_eq_true,if_false,List.nil_append]

end reading

/-! ### Sanitising -/

/-- What the list has to give for the stored preferences. -/
structure Sanitised (device : Device) (pref : SharedPreferences) : Prop where
  skiploopfilter : ∃ n : ℤ, 0 ≤ n ∧ n ≤ 4 ∧
    valuesOf "--avcodec-skiploopfilter" (getLibOptions device pref) = [toString n]
  caching : cachingOptions (getLibOptions device pref) = [] ∨ ∃ n : ℤ, 1 ≤ n ∧ n ≤ 60000 ∧
    cachingOptions (getLibOptions device pref) = ["--network-caching=" ++ toString n]
  chroma : ∃ value, value ≠ "" ∧ (pref.chroma_format = none → value = "RV32") ∧
    valuesOf "--androidwindow-chroma" (getLibOptions device pref) = [value]
  aout : ∀ s, pref.aout = some s → parseInt s = none →
    getLibOptions device { pref with aout := none } = getLibOptions device pref
  deblocking : ∀ s, pref.deblocking = some s → parseInt s = none →
    getLibOptions device { pref with deblocking := none } = getLibOptions device pref

lemma parseInt_minus_one : parseInt "-1" = some (-1) := by decide

section sanitising
variable {device : Device} {pref : SharedPreferences} {m : MachineSpecs}

/-- With machine specs every number is brought into the range. -/
lemma getDeblocking_range (hm : device.machineSpecs = some m) (n : ℤ) :
    0 ≤ getDeblocking device n ∧ getDeblocking device n ≤ 4 := by
  unfold getDeblocking
  simp only [hm]
  split_ifs <;> omega

/-- The variable `deblocking` is in the range unless its string does not parse. -/
lemma deblockingValue_range (hm : device.machineSpecs = some m)
    (h : ∀ s, pref.deblocking = some s → parseInt s ≠ none) :
    0 ≤ pref.deblockingValue device ∧ pref.deblockingValue device ≤ 4 := by
  have hparses : ∃ n, parseInt (pref.deblocking.getD "-1") = some n := by
    cases hs : pref.deblocking with
    | none => exact ⟨-1,parseInt_minus_one⟩
    | some s => exact Option.ne_none_iff_exists'.mp (h s hs)
  obtain ⟨n,hn⟩ := hparses
  unfold SharedPreferences.deblockingValue
  rw [hn]
  exact getDeblocking_range hm n

lemma deblockingValue_of_unparsed {s : String} (hs : pref.deblocking = some s)
    (hparse : parseInt s = none) : pref.deblockingValue device = -1 := by
  unfold SharedPreferences.deblockingValue
  rw [hs,Option.getD_some,hparse]
  rfl

/-- A string that does not parse is replaced before `getAout` looks at it. -/
lemma aoutValue_of_unparsed {s : String} (hs : pref.aout = some s) (hparse : parseInt s = none) :
    pref.aoutValue device = SharedPreferences.aoutValue device { pref with aout := none } := by
  have hnone : SharedPreferences.aoutValue device { pref with aout := none } =
      getAout device ((parseInt "-1").getD (-1)) := rfl
  rw [hnone,parseInt_minus_one,SharedPreferences.aoutValue,hs,Option.getD_some,hparse]
  rfl

lemma getLibOptions_without_aout {s : String} (hs : pref.aout = some s)
    (hparse : parseInt s = none) :
    getLibOptions device { pref with aout := none } = getLibOptions device pref := by
  have haout : pref.aoutValue device =
      SharedPreferences.aoutValue device { pref with aout := none } := aoutValue_of_unparsed hs hparse
  unfold getLibOptions
  rw [haout]
  rfl

lemma networkCaching_range (h : 0 < pref.networkCaching) :
    1 ≤ pref.networkCaching ∧ pref.networkCaching ≤ 60000 := by
  refine ⟨h,?_⟩
  unfold SharedPreferences.networkCaching
  dsimp only
  split_ifs <;> omega

/-- The empty string is passed on. -/
lemma chromaOption_ne_empty_iff (chroma : String) : chromaOption chroma ≠ "" ↔ chroma ≠ "" := by
  unfold chromaOption
  split_ifs with hfirst
  · exact Iff.rfl
  · have hne : chroma ≠ "" := by
      rintro rfl
      exact hfirst (by decide)
    simp [hne]

lemma chroma_ne_empty_iff : pref.chroma device ≠ "" ↔ ∃ c, pref.chroma_format = some c ∧ c ≠ "" ∧
    ¬(c = "YV12" ∧ device.isGingerbreadOrLater = false) := by
  unfold SharedPreferences.chroma
  dsimp only
  cases pref.chroma_format with
  | none => simp
  | some c =>
    split_ifs with h
    · simp_all
    · simp_all

end sanitising

theorem sanitised_iff (device : Device) (pref : SharedPreferences)
    (hspecs : device.machineSpecs ≠ none) :
    Sanitised device pref ↔
      (∀ s, pref.deblocking = some s → parseInt s ≠ none) ∧
      ∃ c, pref.chroma_format = some c ∧ c ≠ "" ∧
        ¬(c = "YV12" ∧ device.isGingerbreadOrLater = false) := by
  obtain ⟨m,hm⟩ := Option.ne_none_iff_exists'.mp hspecs
  rw [← chroma_ne_empty_iff]
  constructor
  · intro h
    constructor
    · intro s hs hparse
      obtain ⟨n,hlow,hhigh,hvalue⟩ := h.skiploopfilter
      rw [valuesOf_skiploopfilter,deblockingValue_of_unparsed hs hparse] at hvalue
      have hne : ∀ n : ℤ, 0 ≤ n → n ≤ 4 → [toString (-1 : ℤ)] ≠ [toString n] := by
        intro n hlow hhigh
        interval_cases n <;> decide
      exact hne n hlow hhigh hvalue
    · obtain ⟨value,hne,-,hvalue⟩ := h.chroma
      rw [valuesOf_chroma] at hvalue
      obtain rfl : chromaOption (pref.chroma device) = value := List.singleton_inj.mp hvalue
      exact (chromaOption_ne_empty_iff _).mp hne
  · rintro ⟨hdeblocking,hchroma⟩
    constructor
    · obtain ⟨hlow,hhigh⟩ := deblockingValue_range hm hdeblocking
      exact ⟨_,hlow,hhigh,valuesOf_skiploopfilter device pref⟩
    · rw [cachingOptions_getLibOptions]
      by_cases hcaching : 0 < pref.networkCaching
      · obtain ⟨hlow,hhigh⟩ := networkCaching_range hcaching
        exact .inr ⟨_,hlow,hhigh,if_pos hcaching⟩
      · exact .inl (if_neg hcaching)
    · refine ⟨_,(chromaOption_ne_empty_iff _).mpr hchroma,?_,valuesOf_chroma device pref⟩
      intro hnone
      obtain ⟨c,hc,-⟩ := chroma_ne_empty_iff.mp hchroma
      rw [hnone] at hc
      cases hc
    · intro s hs hparse
      exact getLibOptions_without_aout hs hparse
    · intro s hs hparse
      exact absurd hparse (hdeblocking s hs)

/-- Nothing stored gives an empty chroma, a word for a number gives -1. -/
theorem unsanitised :
    let device : Device := { machineSpecs := some {} }
    let pref : SharedPreferences := { deblocking := some "high", chroma_format := some "RV16" }
    (valuesOf "--androidwindow-chroma" (getLibOptions device {}) = [""] ∧ ¬Sanitised device {}) ∧
      valuesOf "--avcodec-skiploopfilter" (getLibOptions device pref) = ["-1"] ∧
      getLibOptions device { pref with deblocking := none } ≠ getLibOptions device pref ∧
      ¬Sanitised device pref := by
  intro device pref
  have hchroma : valuesOf "--androidwindow-chroma" (getLibOptions device {}) = [""] := by
    decide +kernel
  have hdeblocking : getLibOptions device { pref with deblocking := none } ≠
      getLibOptions device pref := by decide +kernel
  refine ⟨⟨hchroma,?_⟩,by decide +kernel,hdeblocking,?_⟩
  · intro h
    obtain ⟨value,hne,-,hvalue⟩ := h.chroma
    rw [hchroma] at hvalue
    exact hne (List.singleton_inj.mp hvalue).symm
  · intro h
    exact hdeblocking (h.deblocking "high" rfl (by decide))

theorem sanitised_stored :
    Sanitised { machineSpecs := some {} }
      { chroma_format := some "RV16", aout := some "loud", network_caching_value := some 70000 } :=
  (sanitised_iff { machineSpecs := some {} }
    { chroma_format := some "RV16", aout := some "loud", network_caching_value := some 70000 }
    (by decide)).mpr ⟨by simp,"RV16",rfl,by decide,by decide⟩

end ZenMedia
