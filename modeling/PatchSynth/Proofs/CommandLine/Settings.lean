import PatchSynth.Proofs.CommandLine.Refused

/-!
This module contains what is read from a command line that was written from settings: the settings
themselves, in whatever order they were written. `Reads.settings` and `Reads.refuses` rest on
nothing but the rules of the reading and on the values that each argument accepts.
-/

namespace PatchSynth
namespace Options

inductive Setting where
  | patch (path : String)
  | blockSize (frames : Nat)
  | blocks (count : Nat)
  | record (name path : String)
  | axis (index : Int) (text : String) (value : Float32)

namespace Setting

def argument : Setting → Argument
  | .patch _ => .patch
  | .blockSize _ => .blockSize
  | .blocks _ => .blocks
  | .record _ _ => .record
  | .axis _ _ _ => .axis

def value : Setting → String
  | .patch path => path
  | .blockSize frames => toString frames
  | .blocks count => toString count
  | .record name path => name ++ "=" ++ path
  | .axis index text _ => toString index ++ "=" ++ text

def text (setting : Setting) : String :=
  match setting with
  | .patch path => path
  | _ => "--" ++ setting.argument.name ++ "=" ++ setting.value

def WellFormed : Setting → Prop
  | .patch path => path ≠ "" ∧ path.toList.head? ≠ some '-'
  | .blockSize frames => 1 ≤ frames ∧ frames ≤ maxFrames
  | .blocks count => count < 2 ^ 64
  | .record name path => name ≠ "" ∧ '=' ∉ name.toList ∧ path ≠ ""
  | .axis index text value => -2 ^ 63 ≤ index ∧ index < 2 ^ 63 ∧ Single.read text = .ok value

def patch? : Setting → Option String
  | .patch path => some path
  | _ => none

def blockSize? : Setting → Option Nat
  | .blockSize frames => some frames
  | _ => none

def blocks? : Setting → Option Nat
  | .blocks count => some count
  | _ => none

def record? : Setting → Option (String × String)
  | .record name path => some (name, path)
  | _ => none

def axis? : Setting → Option (Int × Float32)
  | .axis index _ value => some (index, value)
  | _ => none

def apply (options : Options) : Setting → Options
  | .patch path => { options with patch := path }
  | .blockSize frames => { options with blockSize := frames }
  | .blocks count => { options with blocks := some count }
  | .record name path => { options with record := options.record ++ [(name, path)] }
  | .axis index _ value => { options with axis := options.axis ++ [(index, value)] }

variable {setting : Setting}

theorem enter_value (h : setting.WellFormed) (options : Options) :
    setting.argument.enter setting.value options = .ok (setting.apply options) := by
  cases setting with
  | patch path =>
    obtain ⟨hpath, -⟩ := h
    exact if_neg hpath
  | blockSize frames =>
    obtain ⟨hlow, hhigh⟩ := h
    have hmax : maxFrames = 4000 := rfl
    have hread : readBlockSize (toString frames) = .ok frames := by
      rw [readBlockSize, toList_toString, readNat_toDigits (by omega)]
      show (if _ then _ else _) = _
      rw [if_neg]
      simp only [Bool.or_eq_true, decide_eq_true_eq]
      omega
    simp only [argument, value, Argument.enter, hread]
    rfl
  | blocks count =>
    have hbound : count < 2 ^ 64 := h
    have hread : readNat 0xFFFFFFFFFFFFFFFF (toString count).toList = .ok count := by
      rw [toList_toString, readNat_toDigits (by omega)]
    simp only [argument, value, Argument.enter, hread]
    rfl
  | record name path =>
    obtain ⟨hname, hsign, hpath⟩ := h
    have htext : (name ++ "=" ++ path).toList = name.toList ++ '=' :: path.toList := by simp
    have hread : readRecord (name ++ "=" ++ path) = .ok (name, path) := by
      rw [readRecord, splitPair_pair htext hsign, if_neg (by simp [hname, hpath])]
      show Except.ok _ = _
      rw [String.ofList_toList, String.ofList_toList]
    simp only [argument, value, Argument.enter, hread]
    rfl
  | axis index text number =>
    obtain ⟨hlow, hhigh, hnumber⟩ := h
    simp only [argument, value, Argument.enter, readAxis_pair hlow hhigh hnumber]
    rfl

def assignment (setting : Setting) : Assignment where
  argument := setting.argument
  value := setting.value

theorem text_assignment (setting : Setting) : setting.assignment.text = setting.text := by
  cases setting <;> rfl

theorem wellFormed_assignment (h : setting.WellFormed) : setting.assignment.WellFormed := by
  constructor
  · cases setting <;> rfl
  · intro hpatch
    cases setting with
    | patch path => exact h.2
    | _ => cases hpatch

theorem foldlM_assignment {settings : List Setting} (h : ∀ setting ∈ settings, setting.WellFormed)
    (options : Options) :
    (settings.map assignment).foldlM Assignment.enter options
      = .ok (settings.foldl apply options) := by
  induction settings generalizing options with
  | nil => rfl
  | cons setting rest ih =>
    rw [List.forall_mem_cons] at h
    have hfirst : Assignment.enter options setting.assignment = .ok (setting.apply options) :=
      enter_value h.1 options
    rw [List.map_cons, List.foldlM_cons, hfirst, List.foldl_cons]
    exact ih h.2 _

variable {settings : List Setting}

theorem foldl_apply (settings : List Setting) (options : Options) :
    settings.foldl apply options = { options with
      patch := (settings.filterMap patch?).getLast?.getD options.patch
      blockSize := (settings.filterMap blockSize?).getLast?.getD options.blockSize
      blocks := (settings.filterMap blocks?).getLast?.or options.blocks
      record := options.record ++ settings.filterMap record?
      axis := options.axis ++ settings.filterMap axis? } := by
  induction settings generalizing options with
  | nil => simp
  | cons setting rest ih =>
    rw [List.foldl_cons, ih]
    cases setting <;>
      simp [apply, patch?, blockSize?, blocks?, record?, axis?, List.filterMap_cons,
        List.getLast?_cons]

theorem pairwise_of_filterMap {α : Type} {f : Setting → Option α} {only : Option α}
    (h : settings.filterMap f = only.toList) :
    settings.Pairwise fun first second => ¬((f first).isSome = true ∧ (f second).isSome = true) := by
  have hnone : (settings.filterMap f).Pairwise fun _ _ => False := by
    rw [h]
    cases only <;> simp
  rw [List.pairwise_filterMap] at hnone
  apply hnone.imp
  rintro first second hno ⟨hfirst, hsecond⟩
  obtain ⟨value, hvalue⟩ := Option.isSome_iff_exists.1 hfirst
  obtain ⟨value', hvalue'⟩ := Option.isSome_iff_exists.1 hsecond
  exact hno value hvalue value' hvalue'

theorem once_of_filterMap {path : Option String} {frames count : Option Nat}
    (hpatch : settings.filterMap patch? = path.toList)
    (hblockSize : settings.filterMap blockSize? = frames.toList)
    (hblocks : settings.filterMap blocks? = count.toList) :
    Assignment.Once (settings.map assignment) := by
  have hall := (pairwise_of_filterMap hpatch).and
    ((pairwise_of_filterMap hblockSize).and (pairwise_of_filterMap hblocks))
  apply List.pairwise_map.2
  apply hall.imp
  rintro first second ⟨hpatches, hblockSizes, hcounts⟩
  cases second with
  | record => exact Or.inl rfl
  | axis => exact Or.inl rfl
  | patch =>
    refine Or.inr fun hsame => ?_
    cases first <;> cases hsame
    exact hpatches ⟨rfl, rfl⟩
  | blockSize =>
    refine Or.inr fun hsame => ?_
    cases first <;> cases hsame
    exact hblockSizes ⟨rfl, rfl⟩
  | blocks =>
    refine Or.inr fun hsame => ?_
    cases first <;> cases hsame
    exact hcounts ⟨rfl, rfl⟩

end Setting

namespace Reads

variable {read : List String → Except UsageError Options}

theorem settings (hreads : Reads read) {settings : List Setting} {path : Option String}
    {frames count : Option Nat} (hsettings : ∀ setting ∈ settings, setting.WellFormed)
    (hpatch : settings.filterMap Setting.patch? = path.toList)
    (hblockSize : settings.filterMap Setting.blockSize? = frames.toList)
    (hblocks : settings.filterMap Setting.blocks? = count.toList) :
    read (settings.map Setting.text) = .ok {
      patch := path.getD "patch.txt"
      blockSize := frames.getD 512
      blocks := count
      record := settings.filterMap Setting.record?
      axis := settings.filterMap Setting.axis? } := by
  have htexts : settings.map Setting.text
      = (settings.map Setting.assignment).map Assignment.text := by
    rw [List.map_map]
    exact List.map_congr_left fun setting _ => setting.text_assignment.symm
  have hassignments : ∀ assignment ∈ settings.map Setting.assignment, assignment.WellFormed := by
    intro assignment hmem
    obtain ⟨setting, hsetting, rfl⟩ := List.mem_map.1 hmem
    exact Setting.wellFormed_assignment (hsettings setting hsetting)
  rw [htexts, hreads.entered hassignments (Setting.once_of_filterMap hpatch hblockSize hblocks)
    (Setting.foldlM_assignment hsettings {})]
  rw [Setting.foldl_apply, hpatch, hblockSize, hblocks]
  cases path <;> cases frames <;> cases count <;> rfl

theorem refuses (hreads : Reads read) {before after : List String} {argument : Argument}
    {value : String} (hbefore : "--" ∉ before) (hrefuses : argument.Refuses value) :
    (∃ e, read (before ++ ("--" ++ argument.name ++ "=" ++ value) :: after) = .error e) ∧
      ∃ e, read (before ++ ("--" ++ argument.name) :: value :: after) = .error e :=
  hreads.rejected hbefore hrefuses.ne_patch hrefuses.takesValue hrefuses.rejects

end Reads

/--
Settings that are written on a command line are read back, whatever the order they are written in:
the patch, the size and the number of the blocks if there is one, and records and axes in the order
in which they appear. A value of a record or an axis that is no pair, and a block size out of
bounds, is refused with all that stands around it, unless it comes after a `--`.
-/
theorem parse_settings :
    (∀ {settings : List Setting} {path : Option String} {frames count : Option Nat},
      (∀ setting ∈ settings, setting.WellFormed) →
      settings.filterMap Setting.patch? = path.toList →
      settings.filterMap Setting.blockSize? = frames.toList →
      settings.filterMap Setting.blocks? = count.toList →
        parse (settings.map Setting.text) = .ok {
          patch := path.getD "patch.txt"
          blockSize := frames.getD 512
          blocks := count
          record := settings.filterMap Setting.record?
          axis := settings.filterMap Setting.axis? }) ∧
    ∀ {before after : List String} {argument : Argument} {value : String}, "--" ∉ before →
      argument.Refuses value →
        (∃ e, parse (before ++ ("--" ++ argument.name ++ "=" ++ value) :: after) = .error e) ∧
        ∃ e, parse (before ++ ("--" ++ argument.name) :: value :: after) = .error e := by
  constructor
  · intro settings path frames count hsettings hpatch hblockSize hblocks
    exact reads_parse.settings hsettings hpatch hblockSize hblocks
  · intro before after argument value hbefore hrefuses
    exact reads_parse.refuses hbefore hrefuses

def mixedSettings : List Setting :=
  [.axis (-2 ^ 63) "-inf" (-Single.infinity), .record "tone" "a=b.wav", .patch "song.txt",
    .blocks (2 ^ 64 - 1), .record "output" "c.wav", .axis (2 ^ 63 - 1) "nan" Single.nan,
    .blockSize maxFrames]

example : mixedSettings.map Setting.text =
    ["--axis=-9223372036854775808=-inf", "--record=tone=a=b.wav", "song.txt",
      "--blocks=18446744073709551615", "--record=output=c.wav", "--axis=9223372036854775807=nan",
      "--block-size=4000"] := by
  decide

theorem parse_settings_mixed :
    (∀ setting ∈ mixedSettings, setting.WellFormed) ∧
      mixedSettings.filterMap Setting.patch? = (some "song.txt").toList ∧
      mixedSettings.filterMap Setting.blockSize? = (some maxFrames).toList ∧
      mixedSettings.filterMap Setting.blocks? = (some (2 ^ 64 - 1)).toList ∧
      parse (mixedSettings.map Setting.text) = .ok {
        patch := "song.txt"
        blockSize := maxFrames
        blocks := some (2 ^ 64 - 1)
        record := [("tone", "a=b.wav"), ("output", "c.wav")]
        axis := [(-2 ^ 63, -Single.infinity), (2 ^ 63 - 1, Single.nan)] } ∧
      "--" ∉ ["song.txt", "-v"] ∧ Argument.Refuses .record "=x.wav" ∧
      (∃ e, parse (["song.txt", "-v"] ++ ("--" ++ Argument.name .record ++ "=" ++ "=x.wav") ::
        ["--blocks", "1"]) = .error e) ∧
      ∃ e, parse (["song.txt", "-v"] ++ ("--" ++ Argument.name .record) :: "=x.wav" ::
        ["--blocks", "1"]) = .error e := by
  have hsettings : ∀ setting ∈ mixedSettings, setting.WellFormed := by
    simp only [mixedSettings, List.forall_mem_cons, Setting.WellFormed]
    refine ⟨⟨by decide, by decide, rfl⟩, by decide, by decide, by decide, by decide,
      ⟨by decide, by decide, rfl⟩, by decide, ?_⟩
    exact List.forall_mem_nil _
  have hrefuses : Argument.Refuses .record "=x.wav" := by
    have hpair : "=x.wav".toList = [] ++ '=' :: "x.wav".toList := rfl
    exact .record (.noSide hpair List.not_mem_nil (Or.inl rfl))
  have hbefore : "--" ∉ ["song.txt", "-v"] := by decide
  have hpatch : mixedSettings.filterMap Setting.patch? = (some "song.txt").toList := rfl
  have hblockSize : mixedSettings.filterMap Setting.blockSize? = (some maxFrames).toList := rfl
  have hblocks : mixedSettings.filterMap Setting.blocks? = (some (2 ^ 64 - 1)).toList := rfl
  obtain ⟨hread, hrefused⟩ := parse_settings
  have hparse := hread hsettings hpatch hblockSize hblocks
  exact ⟨hsettings, hpatch, hblockSize, hblocks, hparse, hbefore, hrefuses,
    hrefused hbefore hrefuses⟩

end Options
end PatchSynth
