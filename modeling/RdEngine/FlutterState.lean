/-
RdEngine/FlutterState.lean

The option map of the frontend (`options_json` and `set_options_json` of
`flutter_state.rs`) over the configuration store of `hbb_common`.

What is exported are the default settings, over them the options and over these the
settings that override them.  Importing sets the options one by one, so it replaces the
map only where nothing has to go: an option of the store that the imported map lacks
stays, and an empty value removes the option instead of being kept (`options_replaced`).
The text of JSON values is a parameter; what is printed of a map of strings is read back.
-/
import Mathlib
import RdEngine.Lib.Json
import RdEngine.Lib.JsonText

namespace RdEngine

namespace FlutterState

open Json Std

/-! ### The configuration store -/

/-- A map of options; its order is that of the keys. -/
abbrev Options := ExtTreeMap String String

/-- The settings of the program, its options, and the options as they were last written to the
file. -/
structure Config where
  defaultSettings : Options := ∅
  options : Options := ∅
  overwriteSettings : Options := ∅
  file : Options := ∅

namespace Config

variable (config : Config)

/-- What is extended later wins. -/
def getOptions : Options :=
  config.defaultSettings ∪ config.options ∪ config.overwriteSettings

/-- `get_or` of the three maps. -/
def getOption (k : String) : String :=
  ((config.overwriteSettings[k]?.or config.options[k]?).or config.defaultSettings[k]?).getD ""

/-- `is_option_can_save`: neither overwritten nor the default. -/
def isOptionCanSave (k v : String) : Bool :=
  !(config.overwriteSettings.contains k || config.defaultSettings[k]? == some v)

/-- The options are replaced and written. -/
def store (options : Options) : Config := { config with options, file := options }

/-- `set_option`; an empty value removes the option. -/
def setOption (k v : String) : Config :=
  if !config.isOptionCanSave k v then
    if config.options.contains k then config.store (config.options.erase k) else config
  else
    let v2 := if v = "" then none else some v
    if v2 ≠ config.options[k]? then
      match v2 with
      | none => config.store (config.options.erase k)
      | some v => config.store (config.options.insert k v)
    else config

end Config

/-! ### The bridge -/

/-- The text of a JSON value, and the value of a text. -/
structure SerdeJson where
  toString : Value → String
  fromStr : String → Option Value

/-- The object of a map of strings, its keys in order. -/
def object (options : Options) : Value :=
  .object (options.toList.map fun (k, v) => (k, .string v))

variable (serde : SerdeJson)

def optionsJson (config : Config) : String := serde.toString (object config.getOptions)

def valueToString : Value → String
  | .string text => text
  | other => serde.toString other

/-- One member: the option is set, and counted where it does not read back. -/
def setMember (state : Nat × Config) (member : String × Value) : Nat × Config :=
  let config := state.2.setOption member.1 (valueToString serde member.2)
  (if config.getOption member.1 ≠ valueToString serde member.2 then state.1 + 1 else state.1, config)

/-- The number of rejected members, and the configuration behind them. -/
def setOptionsJson (json : String) (config : Config) : Nat × Config :=
  match serde.fromStr json with
  | some (.object members) => members.foldl (setMember serde) (0, config)
  | _ => (0, config)

/-- What is printed of a map of strings is read back. -/
def SerdeJson.ReadsBack (serde : SerdeJson) : Prop :=
  ∀ options : Options, serde.fromStr (serde.toString (object options)) = some (object options)

/-! ### Setting one option -/

theorem compare_eq_iff {k k' : String} : compare k k' = .eq ↔ k' = k :=
  LawfulEqCmp.compare_eq_iff_eq.trans eq_comm

theorem getElem?_erase (options : Options) (k k' : String) :
    (options.erase k)[k']? = if k' = k then none else options[k']? := by
  rw [ExtTreeMap.getElem?_erase]
  simp only [compare_eq_iff]

theorem getElem?_insert (options : Options) (k v k' : String) :
    (options.insert k v)[k']? = if k' = k then some v else options[k']? := by
  rw [ExtTreeMap.getElem?_insert]
  simp only [compare_eq_iff]

namespace Config

variable {config : Config} {k v : String}

/-- What is kept of a value for an option. -/
def kept (config : Config) (k v : String) : Option String :=
  if config.isOptionCanSave k v = true ∧ v ≠ "" then some v else none

theorem ite_erase (h : config.options[k]? ≠ none) (hkept : config.kept k v = none)
    (hset : config.setOption k v = config.store (config.options.erase k)) :
    config.options[k]? ≠ config.kept k v ∧ ∃ options, config.setOption k v = config.store options ∧
      ∀ k', options[k']? = if k' = k then config.kept k v else config.options[k']? := by
  refine ⟨hkept ▸ h, _, hset, fun k' => ?_⟩
  rw [getElem?_erase, hkept]

/-- An option is kept as it is, and then nothing changes, or it is replaced and written. -/
theorem setOption_cases :
    config.options[k]? = config.kept k v ∧ config.setOption k v = config ∨
    config.options[k]? ≠ config.kept k v ∧ ∃ options, config.setOption k v = config.store options ∧
      ∀ k', options[k']? = if k' = k then config.kept k v else config.options[k']? := by
  by_cases hsave : config.isOptionCanSave k v = true
  · by_cases hv : v = ""
    · subst hv
      have hkept : config.kept k "" = none := if_neg fun h => h.2 rfl
      by_cases hthere : config.options[k]? = none
      · refine .inl ⟨hthere.trans hkept.symm, ?_⟩
        simp [setOption, hsave, hthere]
      · refine .inr (ite_erase hthere hkept ?_)
        simp [setOption, hsave, Ne.symm hthere]
    · have hkept : config.kept k v = some v := if_pos ⟨hsave, hv⟩
      by_cases hthere : config.options[k]? = some v
      · refine .inl ⟨hthere.trans hkept.symm, ?_⟩
        simp [setOption, hsave, hv, hthere]
      · refine .inr ⟨hkept ▸ hthere, config.options.insert k v, ?_, fun k' => ?_⟩
        · simp [setOption, hsave, hv, Ne.symm hthere]
        · rw [getElem?_insert, hkept]
  · have hkept : config.kept k v = none := if_neg fun h => hsave h.1
    have hset : config.setOption k v =
        if config.options.contains k then config.store (config.options.erase k) else config := by
      simp [setOption, hsave]
    by_cases hthere : config.options[k]? = none
    · refine .inl ⟨hthere.trans hkept.symm, ?_⟩
      rw [hset, ExtTreeMap.contains_eq_isSome_getElem?, hthere]
      rfl
    · refine .inr (ite_erase hthere hkept ?_)
      rw [hset, if_pos]
      rw [ExtTreeMap.contains_eq_isSome_getElem?]
      exact Option.isSome_iff_ne_none.mpr hthere

/-- Only the options change. -/
theorem setOption_settings :
    (config.setOption k v).defaultSettings = config.defaultSettings ∧
      (config.setOption k v).overwriteSettings = config.overwriteSettings := by
  rcases @setOption_cases config k v with ⟨-, h⟩ | ⟨-, options, h, -⟩
  · rw [h]
    exact ⟨rfl, rfl⟩
  · rw [h]
    exact ⟨rfl, rfl⟩

theorem setOption_options (k' : String) : (config.setOption k v).options[k']? =
    if k' = k then config.kept k v else config.options[k']? := by
  rcases @setOption_cases config k v with ⟨hthere, h⟩ | ⟨-, options, h, hoptions⟩
  · rw [h]
    split
    · next heq =>
      rw [heq]
      exact hthere
    · rfl
  · rw [h]
    exact hoptions k'

/-- Setting what is there changes nothing, the file included. -/
theorem setOption_of_kept (h : config.options[k]? = config.kept k v) :
    config.setOption k v = config := by
  rcases @setOption_cases config k v with ⟨-, hset⟩ | ⟨hne, -⟩
  · exact hset
  · exact absurd h hne

/-- What is kept depends on the settings only. -/
theorem kept_congr {config' : Config} (hdefault : config'.defaultSettings = config.defaultSettings)
    (hoverwrite : config'.overwriteSettings = config.overwriteSettings) :
    config'.kept k v = config.kept k v := by
  unfold kept isOptionCanSave
  rw [hdefault, hoverwrite]

theorem getElem?_getOptions (config : Config) (k : String) :
    config.getOptions[k]? =
      (config.overwriteSettings[k]?.or config.options[k]?).or config.defaultSettings[k]? := by
  unfold getOptions
  rw [ExtTreeMap.getElem?_union, ExtTreeMap.getElem?_union, Option.or_assoc]

/-- An option reads as it is exported. -/
theorem getOption_eq (config : Config) (k : String) :
    config.getOption k = config.getOptions[k]?.getD "" := by
  rw [getElem?_getOptions]
  rfl

/-- The value reads back behind its setting. -/
def ReadsBack (config : Config) (k v : String) : Prop :=
  ((config.overwriteSettings[k]?.or (config.kept k v)).or config.defaultSettings[k]?).getD "" = v

instance (config : Config) (k v : String) : Decidable (config.ReadsBack k v) :=
  inferInstanceAs (Decidable (_ = _))

theorem getOption_setOption : (config.setOption k v).getOption k = v ↔ config.ReadsBack k v := by
  obtain ⟨hdefault, hoverwrite⟩ := @setOption_settings config k v
  unfold getOption ReadsBack
  rw [hdefault, hoverwrite, setOption_options, if_pos rfl]

/-! ### Setting the members of a map -/

/-- The options are set one by one. -/
def setAll (config : Config) (pairs : List (String × String)) : Config :=
  pairs.foldl (fun config pair => config.setOption pair.1 pair.2) config

theorem setAll_settings (config : Config) (pairs : List (String × String)) :
    (config.setAll pairs).defaultSettings = config.defaultSettings ∧
      (config.setAll pairs).overwriteSettings = config.overwriteSettings := by
  induction pairs generalizing config with
  | nil => exact ⟨rfl, rfl⟩
  | cons pair pairs ih =>
    obtain ⟨hdefault, hoverwrite⟩ := ih (config.setOption pair.1 pair.2)
    obtain ⟨hdefault', hoverwrite'⟩ := @setOption_settings config pair.1 pair.2
    exact ⟨hdefault.trans hdefault', hoverwrite.trans hoverwrite'⟩

/-- An option that is not set stays as it is. -/
theorem setAll_options_of_not_mem {pairs : List (String × String)} (h : ∀ v, (k, v) ∉ pairs) :
    (config.setAll pairs).options[k]? = config.options[k]? := by
  induction pairs generalizing config with
  | nil => rfl
  | cons pair pairs ih =>
    have hk : k ≠ pair.1 := fun heq => h pair.2 (heq ▸ List.mem_cons_self)
    show ((config.setOption pair.1 pair.2).setAll pairs).options[k]? = _
    rw [ih fun v hv => h v (List.mem_cons_of_mem _ hv), setOption_options, if_neg hk]

/-- An option that is set once is what is kept of its value. -/
theorem setAll_options_of_mem {pairs : List (String × String)}
    (hdistinct : pairs.Pairwise fun pair pair' => pair.1 ≠ pair'.1) (h : (k, v) ∈ pairs) :
    (config.setAll pairs).options[k]? = config.kept k v := by
  induction pairs generalizing config with
  | nil => cases h
  | cons pair pairs ih =>
    rw [List.pairwise_cons] at hdistinct
    show ((config.setOption pair.1 pair.2).setAll pairs).options[k]? = _
    rcases List.mem_cons.mp h with rfl | h
    · have hrest : ∀ v', (k, v') ∉ pairs := fun v' hv' => hdistinct.1 _ hv' rfl
      rw [setAll_options_of_not_mem hrest, setOption_options, if_pos rfl]
    · obtain ⟨hdefault, hoverwrite⟩ := @setOption_settings config pair.1 pair.2
      rw [ih hdistinct.2 h]
      exact kept_congr hdefault hoverwrite

/-- Members that are all there change nothing. -/
theorem setAll_of_kept {pairs : List (String × String)}
    (h : ∀ pair ∈ pairs, config.options[pair.1]? = config.kept pair.1 pair.2) :
    config.setAll pairs = config := by
  induction pairs with
  | nil => rfl
  | cons pair pairs ih =>
    rw [List.forall_mem_cons] at h
    show (config.setOption pair.1 pair.2).setAll pairs = config
    rw [setOption_of_kept h.1]
    exact ih h.2

end Config

/-! ### Importing a map -/

/-- The configuration behind the import of a map. -/
def imported (config : Config) (options : Options) : Config := config.setAll options.toList

section

variable {serde : SerdeJson} {config : Config} {options : Options}

theorem setMember_string (n : Nat) (config : Config) (k v : String) :
    setMember serde (n, config) (k, .string v) =
      (if config.ReadsBack k v then n else n + 1, config.setOption k v) := by
  show (if (config.setOption k v).getOption k ≠ v then n + 1 else n, config.setOption k v) = _
  by_cases hread : config.ReadsBack k v
  · rw [if_pos hread, if_neg (not_not.mpr (Config.getOption_setOption.mpr hread))]
  · rw [if_neg hread, if_pos (mt Config.getOption_setOption.mp hread)]

theorem foldl_setMember (pairs : List (String × String)) (n : Nat) (config : Config) :
    (pairs.map fun pair => (pair.1, Value.string pair.2)).foldl (setMember serde) (n, config) =
      (n + pairs.countP (fun pair => ¬ config.ReadsBack pair.1 pair.2), config.setAll pairs) := by
  induction pairs generalizing n config with
  | nil => rfl
  | cons pair pairs ih =>
    obtain ⟨hdefault, hoverwrite⟩ := @Config.setOption_settings config pair.1 pair.2
    have hcongr : ∀ pair' : String × String, (config.setOption pair.1 pair.2).ReadsBack pair'.1 pair'.2 ↔
        config.ReadsBack pair'.1 pair'.2 := by
      intro pair'
      unfold Config.ReadsBack
      rw [hdefault, hoverwrite, Config.kept_congr hdefault hoverwrite]
    rw [List.map_cons, List.foldl_cons, setMember_string, ih, List.countP_cons]
    simp only [hcongr]
    refine Prod.ext ?_ rfl
    by_cases hread : config.ReadsBack pair.1 pair.2
    · simp [hread]
    · simp [hread]
      omega

theorem setOptionsJson_object (h : serde.ReadsBack) (config : Config) (options : Options) :
    setOptionsJson serde (serde.toString (object options)) config =
      (options.toList.countP (fun pair => ¬ config.ReadsBack pair.1 pair.2),
        imported config options) := by
  unfold setOptionsJson
  rw [h options]
  show (options.toList.map fun pair => (pair.1, Value.string pair.2)).foldl (setMember serde)
    (0, config) = _
  rw [foldl_setMember, Nat.zero_add]
  rfl

/-- What is exported says what the map is. -/
theorem object_inj {options options' : Options} (h : object options = object options') :
    options = options' := by
  have hpairs : options.toList = options'.toList := by
    refine List.map_injective_iff.mpr ?_ (Value.object.inj h)
    rintro ⟨k, v⟩ ⟨k', v'⟩ heq
    cases heq
    rfl
  refine ExtTreeMap.ext_getElem? fun k => Option.ext fun v => ?_
  rw [← ExtTreeMap.mem_toList_iff_getElem?_eq_some, ← ExtTreeMap.mem_toList_iff_getElem?_eq_some,
    hpairs]

theorem optionsJson_eq_iff (h : serde.ReadsBack) (config config' : Config) :
    optionsJson serde config = optionsJson serde config' ↔
      config.getOptions = config'.getOptions := by
  constructor
  · intro htext
    have hread := h config.getOptions
    unfold optionsJson at htext
    rw [htext, h config'.getOptions] at hread
    exact (object_inj (Option.some.inj hread)).symm
  · intro hoptions
    unfold optionsJson
    rw [hoptions]

theorem distinct_toList (options : Options) :
    options.toList.Pairwise fun pair pair' => pair.1 ≠ pair'.1 :=
  ExtTreeMap.distinct_keys_toList.imp fun h heq => h (compare_eq_iff.mpr heq.symm)

/-- An imported option is what is kept of its value, and every other option stays. -/
theorem imported_options (config : Config) (options : Options) (k : String) :
    (imported config options).options[k]? =
      match options[k]? with
      | some v => config.kept k v
      | none => config.options[k]? := by
  cases hv : options[k]? with
  | some v =>
    exact Config.setAll_options_of_mem (distinct_toList options)
      (ExtTreeMap.mem_toList_iff_getElem?_eq_some.mpr hv)
  | none =>
    refine Config.setAll_options_of_not_mem fun v hmem => ?_
    rw [ExtTreeMap.mem_toList_iff_getElem?_eq_some, hv] at hmem
    cases hmem

/-- Importing a map again changes nothing. -/
theorem imported_imported (config : Config) (options : Options) :
    imported (imported config options) options = imported config options := by
  obtain ⟨hdefault, hoverwrite⟩ := config.setAll_settings options.toList
  refine Config.setAll_of_kept fun pair hpair => ?_
  have hv : options[pair.1]? = some pair.2 :=
    ExtTreeMap.mem_toList_iff_getElem?_eq_some.mp hpair
  rw [imported_options, hv]
  exact (Config.kept_congr hdefault hoverwrite).symm

theorem getElem?_getOptions_imported (config : Config) (options : Options) (k : String) :
    (imported config options).getOptions[k]? =
      (config.overwriteSettings[k]?.or (match options[k]? with
        | some v => config.kept k v
        | none => config.options[k]?)).or config.defaultSettings[k]? := by
  obtain ⟨hdefault, hoverwrite⟩ := config.setAll_settings options.toList
  rw [Config.getElem?_getOptions, imported_options]
  unfold imported
  rw [hdefault, hoverwrite]

/-- An option that is exported as it was imported has read back. -/
theorem readsBack_of_exported {k v : String} (hv : options[k]? = some v)
    (h : (imported config options).getOptions[k]? = options[k]?) : config.ReadsBack k v := by
  rw [getElem?_getOptions_imported, hv] at h
  unfold Config.ReadsBack
  dsimp only at h
  rw [h]
  rfl

end

/-! ### Replacing the options -/

/-- The options of one configuration replace those of another. -/
structure Replaces (serde : SerdeJson) (a b : Config) : Prop where
  /-- What is exported is what was imported. -/
  exported :
    optionsJson serde (setOptionsJson serde (optionsJson serde a) b).2 = optionsJson serde a
  /-- No member is rejected. -/
  accepted : (setOptionsJson serde (optionsJson serde a) b).1 = 0
  /-- A second time changes nothing more. -/
  settled :
    (setOptionsJson serde (optionsJson serde a)
      (setOptionsJson serde (optionsJson serde a) b).2).2 =
        (setOptionsJson serde (optionsJson serde a) b).2

/-- Nothing has to go: what overrides is the same, what the imported map lacks is not there, and
an empty value is the default. -/
structure ReplacesWhen (a b : Config) : Prop where
  overwritten : ∀ k v : String, b.overwriteSettings[k]? = some v → a.getOptions[k]? = some v
  lacking : ∀ k : String, b.overwriteSettings[k]? = none → a.getOptions[k]? = none →
    b.options[k]? = none ∧ b.defaultSettings[k]? = none
  empty : ∀ k : String, b.overwriteSettings[k]? = none → a.getOptions[k]? = some "" →
    b.defaultSettings[k]? = some ""

/-- What is kept of a value, under what overrides it and over the default, is the value, unless
it is empty and not the default. -/
theorem kept_or_eq_iff {config : Config} {k v : String}
    (h : config.overwriteSettings[k]? = none) :
    (config.kept k v).or config.defaultSettings[k]? = some v ↔
      (v = "" → config.defaultSettings[k]? = some "") := by
  have hsave : config.isOptionCanSave k v = true ↔ config.defaultSettings[k]? ≠ some v := by
    unfold Config.isOptionCanSave
    rw [ExtTreeMap.contains_eq_isSome_getElem?, h]
    simp
  unfold Config.kept
  by_cases hv : v = ""
  · subst hv
    rw [if_neg fun hkept => hkept.2 rfl, Option.none_or]
    exact ⟨fun hdefault _ => hdefault, fun hdefault => hdefault rfl⟩
  · refine ⟨fun _ hempty => absurd hempty hv, fun _ => ?_⟩
    by_cases hdefault : config.defaultSettings[k]? = some v
    · rw [if_neg fun hkept => hsave.mp hkept.1 hdefault, Option.none_or, hdefault]
    · rw [if_pos ⟨hsave.mpr hdefault, hv⟩, Option.some_or]

theorem exported_iff (a b : Config) :
    (imported b a.getOptions).getOptions = a.getOptions ↔ ReplacesWhen a b := by
  constructor
  · intro hexported
    -- what the export shows of a key: overwritten, kept, or the default
    have hget : ∀ k : String, (b.overwriteSettings[k]?.or (match a.getOptions[k]? with
        | some v => b.kept k v
        | none => b.options[k]?)).or b.defaultSettings[k]? = a.getOptions[k]? := by
      intro k
      rw [← getElem?_getOptions_imported, hexported]
    constructor
    · intro k v hv
      rw [← hget k, hv]
      rfl
    · intro k hoverwrite hlacks
      have h := hget k
      rw [hoverwrite, hlacks, Option.none_or, Option.or_eq_none_iff] at h
      exact h
    · intro k hoverwrite hempty
      have h := hget k
      rw [hoverwrite, hempty, Option.none_or] at h
      exact (kept_or_eq_iff hoverwrite).mp h rfl
  · intro hwhen
    refine ExtTreeMap.ext_getElem? fun k => ?_
    rw [getElem?_getOptions_imported]
    cases hoverwrite : b.overwriteSettings[k]? with
    | some w =>
      rw [hwhen.overwritten k w hoverwrite]
      rfl
    | none =>
      rw [Option.none_or]
      cases hv : a.getOptions[k]? with
      | some v =>
        refine (kept_or_eq_iff hoverwrite).mpr fun hempty => ?_
        exact hwhen.empty k hoverwrite (hempty ▸ hv)
      | none =>
        obtain ⟨hoptions, hdefault⟩ := hwhen.lacking k hoverwrite hv
        dsimp only
        rw [hoptions, hdefault]
        rfl

/-- Two configurations of one program: every option is one that the imported map has, and an empty
value is the default. -/
theorem replacesWhen_iff_of_settings {a b : Config}
    (hdefault : a.defaultSettings = b.defaultSettings)
    (hoverwrite : a.overwriteSettings = b.overwriteSettings) :
    ReplacesWhen a b ↔
      (∀ k : String, b.options[k]? ≠ none → a.getOptions[k]? ≠ none) ∧
        ∀ k : String, b.overwriteSettings[k]? = none → a.getOptions[k]? = some "" →
          b.defaultSettings[k]? = some "" := by
  have hover : ∀ k v : String, b.overwriteSettings[k]? = some v → a.getOptions[k]? = some v := by
    intro k v hv
    rw [Config.getElem?_getOptions, hoverwrite, hv]
    rfl
  constructor
  · intro h
    refine ⟨fun k hthere hlacks => ?_, h.empty⟩
    cases hv : b.overwriteSettings[k]? with
    | some v =>
      rw [hover k v hv] at hlacks
      cases hlacks
    | none => exact hthere (h.lacking k hv hlacks).1
  · rintro ⟨hkeys, hempty⟩
    refine ⟨hover, fun k _ hlacks => ⟨?_, ?_⟩, hempty⟩
    · by_contra hthere
      exact hkeys k hthere hlacks
    · -- the defaults are exported
      rw [Config.getElem?_getOptions, Option.or_eq_none_iff, hdefault] at hlacks
      exact hlacks.2

theorem replaces_iff {serde : SerdeJson} (h : serde.ReadsBack) (a b : Config) :
    Replaces serde a b ↔ ReplacesWhen a b := by
  have happlied := setOptionsJson_object h b a.getOptions
  rw [← exported_iff]
  constructor
  · intro hreplaces
    have hexported := hreplaces.exported
    unfold optionsJson at hexported
    rw [happlied] at hexported
    exact (optionsJson_eq_iff h _ a).mp hexported
  · intro hexported
    have hcount : a.getOptions.toList.countP
        (fun pair => ¬ b.ReadsBack pair.1 pair.2) = 0 := by
      rw [List.countP_eq_zero]
      rintro ⟨k, v⟩ hpair
      have hv := ExtTreeMap.mem_toList_iff_getElem?_eq_some.mp hpair
      have hread : b.ReadsBack k v := readsBack_of_exported hv (by rw [hexported])
      simp [hread]
    refine ⟨?_, ?_, ?_⟩
    · unfold optionsJson
      rw [happlied, hexported]
    · unfold optionsJson
      rw [happlied]
      exact hcount
    · unfold optionsJson
      rw [happlied, setOptionsJson_object h]
      exact imported_imported b a.getOptions

/-- **Importing what was exported replaces the options exactly when nothing has to go.**  A text
that is no object changes nothing. -/
theorem options_replaced {serde : SerdeJson} (h : serde.ReadsBack) :
    (∀ a b, Replaces serde a b ↔ ReplacesWhen a b) ∧
      ∀ json config, (∀ members, serde.fromStr json ≠ some (.object members)) →
        setOptionsJson serde json config = (0, config) := by
  refine ⟨replaces_iff h, fun json config hjson => ?_⟩
  unfold setOptionsJson
  split
  · next members hmembers => exact absurd hmembers (hjson members)
  · rfl

/-! ### Texts of objects of strings -/

/-- The compact texts of objects whose values are strings. -/
def compactJson : SerdeJson where
  toString
    | .object members =>
      String.ofList (JsonText.printObject (members.map fun (k, v) => (k, v.asStr.getD "")))
    | _ => "null"
  fromStr text :=
    (JsonText.readObject text.toList).map fun members =>
      .object (members.map fun (k, v) => (k, .string v))

theorem compactJson_toString (options : Options) :
    compactJson.toString (object options) =
      String.ofList (JsonText.printObject options.toList) := by
  have hpairs : (options.toList.map fun (k, v) => (k, Value.string v)).map
      (fun (k, v) => (k, v.asStr.getD "")) = options.toList := by
    rw [List.map_map]
    exact List.map_id _
  show String.ofList (JsonText.printObject ((options.toList.map fun (k, v) =>
    (k, Value.string v)).map fun (k, v) => (k, v.asStr.getD ""))) = _
  rw [hpairs]

theorem compactJson_readsBack : compactJson.ReadsBack := by
  intro options
  rw [compactJson_toString]
  unfold compactJson
  dsimp only
  rw [String.toList_ofList, JsonText.readObject_printObject, Option.map_some]
  rfl

theorem getElem?_ofList_singleton (key value k : String) :
    (ExtTreeMap.ofList [(key, value)] : Options)[k]? = if k = key then some value else none := by
  rw [ExtTreeMap.ofList_singleton]
  exact getElem?_insert ∅ key value k

/-- An option that is there replaces the one that was set otherwise. -/
theorem options_replaced_one :
    Replaces compactJson { options := ExtTreeMap.ofList [("theme", "dark")] }
      { options := ExtTreeMap.ofList [("theme", "light")] } := by
  have hget : ∀ k : String,
      ({ options := ExtTreeMap.ofList [("theme", "dark")] } : Config).getOptions[k]? =
        if k = "theme" then some "dark" else none := by
    intro k
    rw [Config.getElem?_getOptions]
    show (Option.or none _).or none = _
    rw [Option.none_or, Option.or_none, getElem?_ofList_singleton]
  refine ((options_replaced compactJson_readsBack).1 _ _).mpr ⟨?_, ?_, ?_⟩
  · intro k v h
    cases h
  · intro k _ hlacks
    rw [hget] at hlacks
    refine ⟨?_, rfl⟩
    rw [getElem?_ofList_singleton, if_neg]
    intro heq
    rw [if_pos heq] at hlacks
    cases hlacks
  · intro k _ hempty
    rw [hget] at hempty
    split at hempty
    · exact absurd (Option.some.inj hempty) (by decide)
    · cases hempty

/-- An option that the imported map lacks stays. -/
theorem options_survive :
    ¬ Replaces compactJson {} { options := ExtTreeMap.ofList [("theme", "light")] } := by
  rw [replaces_iff compactJson_readsBack]
  intro h
  have hlacking := (h.lacking "theme" rfl rfl).1
  cases hlacking

end FlutterState

end RdEngine
