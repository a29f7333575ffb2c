import FormatAudit.Options
import FormatAudit.Proofs.Decoding.Members
import FormatAudit.Proofs.Decoding.Values
import FormatAudit.Proofs.Fields
import FormatAudit.Proofs.Json.Writing

/-! Overrides from the text of an object to the options of a call: which objects are overrides, and what the members
become. -/

namespace FormatAudit.Decoder

inductive PluginDirs : Json → Option (List String) → Prop
  | absent : PluginDirs .null none
  | listed {value : Json} {dirs : List String} : value.IsList Json.IsText dirs → PluginDirs value (some dirs)

theorem pluginDirs_eq_ok_iff {room : Nat} {value : Json} {dirs : Option (List String)}
    (shallow : value.depth ≤ room) :
    pluginDirs room value = .ok dirs ↔ PluginDirs value dirs := by
  cases value with
  | null =>
      simp only [pluginDirs, Except.ok.injEq]
      constructor
      · rintro rfl
        exact .absent
      · rintro (_ | ⟨_, ⟨⟩, _⟩)
        rfl
  | array items stop =>
      simp only [pluginDirs, map_eq_ok_iff, texts, sequence_eq_ok_iff shallow, text_eq_ok_iff]
      constructor
      · rintro ⟨listed, items, rfl⟩
        exact .listed items
      · rintro (_ | listed)
        exact ⟨_, listed, rfl⟩
  | _ =>
      refine iff_of_false ?_ ?_
      · intro read
        obtain ⟨_, read, _⟩ := map_eq_ok_iff.mp read
        exact mismatch_ne_ok _ _ _ read
      · rintro (_ | ⟨_, ⟨⟩, _⟩)

section

variable {room : Nat} {members : List (Json.StringToken × Json)} {named : Fields Json}

theorem overrideMembers_eq_ok_iff {plugins result : Option (Option (List String))} {options : Fields Json} :
    overrideMembers room plugins members = .ok (result, options) ↔
      ∃ named, Json.Named members named ∧
        ReadOnce isPluginKey (fun value dirs => pluginDirs room value = .ok dirs) plugins named result ∧
        options = named.filter (fun member => !isPluginKey member.1) ∧
        ∀ option ∈ options, examine room option.2 = .ok () := by
  induction members generalizing plugins result options with
  | nil =>
      simp only [overrideMembers, Except.ok.injEq, Prod.mk.injEq, Json.named_nil_iff, exists_eq_left, readOnce_nil]
      constructor
      · rintro ⟨rfl, rfl⟩
        simp
      · rintro ⟨rfl, rfl, _⟩
        simp
  | cons member rest ih =>
      obtain ⟨key, value⟩ := member
      simp only [overrideMembers, bind_eq_ok_iff, ofFault_eq_ok_iff, Json.exists_named_cons_iff]
      refine exists_congr fun name => and_congr_right fun _ => ?_
      -- plugin directories are read here and may not have been found yet; an option is only looked at and kept
      by_cases plugin : isPluginKey name = true
      · rw [if_pos plugin, once_eq_ok_iff]
        simp only [ih, readOnce_cons_of_key plugin, List.filter_cons, plugin, Bool.not_true,
          Bool.false_eq_true, ↓reduceIte]
        constructor
        · rintro ⟨fresh, dirs, first, named, matched, once, kept⟩
          exact ⟨named, matched, ⟨fresh, dirs, first, once⟩, kept⟩
        · rintro ⟨named, matched, ⟨fresh, dirs, first, once⟩, kept⟩
          exact ⟨fresh, dirs, first, named, matched, once, kept⟩
      · rw [if_neg plugin]
        rw [Bool.not_eq_true] at plugin
        simp only [bind_eq_ok_iff, pure, Except.pure, Except.ok.injEq, Prod.exists, Prod.mk.injEq, ih,
          readOnce_cons_of_other plugin, List.filter_cons, plugin, Bool.not_false, ↓reduceIte]
        constructor
        · rintro ⟨⟨⟩, first, _, _, ⟨named, matched, once, rfl, sound⟩, rfl, rfl⟩
          exact ⟨named, matched, once, rfl, List.forall_mem_cons.mpr ⟨first, sound⟩⟩
        · rintro ⟨named, matched, once, rfl, sound⟩
          obtain ⟨first, sound⟩ := List.forall_mem_cons.mp sound
          exact ⟨(), first, _, _, ⟨named, matched, once, rfl, sound⟩, rfl, rfl⟩

/-- The overrides that the members of an object stand for. -/
structure Overriding (named : Fields Json) (o : Overrides) : Prop where
  plugins : ∃ dirs, ReadOnce isPluginKey PluginDirs none named dirs ∧ o.pluginDirs = dirs.getD none
  options : ∃ settings : Fields Setting,
    Fields.Matched (fun value found => setting maxOpen value = .ok found)
      (named.filter fun member => !isPluginKey member.1) settings ∧
    o.passthrough = .ofList settings

theorem readSettings_eq_ok_iff {options : Fields Json} {settings : Fields Setting}
    (shallow : ∀ option ∈ options, option.2.depth ≤ room) (within : room ≤ maxOpen) :
    (options.mapM fun (key, value) => (key, ·) <$> setting room value) = .ok settings ↔
      Fields.Matched (fun value found => setting maxOpen value = .ok found) options settings := by
  have same : ∀ option ∈ options, (option.1, ·) <$> setting room option.2 =
    (option.1, ·) <$> setting maxOpen option.2 :=
    fun option present => by
      rw [setting_congr_room option.2 (shallow option present) ((shallow option present).trans within)]
  rw [mapM_congr same, mapM_eq_ok_iff]
  simp [map_eq_ok_iff, Prod.ext_iff, Fields.Matched, and_comm]

theorem overrides_eq_ok_iff {stop : Option Json.Fault} {o : Overrides}
    (shallow : (Json.object members stop).depth ≤ room) (within : room ≤ maxOpen) :
    overrides room (.object members stop) = .ok o ↔
      stop = none ∧ ∃ named, Json.Named members named ∧ Overriding named o := by
  obtain ⟨room, rfl⟩ := Nat.exists_eq_add_one.mpr (Nat.zero_lt_of_lt shallow)
  rw [Json.depth, Nat.add_le_add_iff_right] at shallow
  have fits {named : Fields Json} (matched : Json.Named members named) :
    ∀ member ∈ named, member.2.depth ≤ room :=
    fun member present => (matched.depth_le present).trans shallow
  have plugins {named : Fields Json} (matched : Json.Named members named) (dirs : Option (Option (List String))) :
      ReadOnce isPluginKey (fun value dirs => pluginDirs room value = .ok dirs) none named dirs ↔
        ReadOnce isPluginKey PluginDirs none named dirs :=
    readOnce_congr fun member present _ _ => pluginDirs_eq_ok_iff (fits matched member present)
  simp only [overrides, descend, bind_eq_ok_iff, pure, Except.pure, Except.ok.injEq, Prod.exists,
    overrideMembers_eq_ok_iff]
  constructor
  · rintro ⟨dirs, options, ⟨named, matched, once, rfl, _⟩, ⟨⟩, whole, settings, read, rfl⟩
    refine ⟨ended_eq_ok_iff.mp whole, named, matched, ⟨dirs, (plugins matched dirs).mp once, rfl⟩,
      settings, ?_, rfl⟩
    refine (readSettings_eq_ok_iff (fun option kept => ?_) (by omega)).mp read
    exact fits matched option (List.mem_of_mem_filter kept)
  · rintro ⟨rfl, named, matched, ⟨dirs, once, plugin⟩, settings, read, passed⟩
    have shallow : ∀ option ∈ named.filter (fun member => !isPluginKey member.1), option.2.depth ≤ room :=
      fun option kept => fits matched option (List.mem_of_mem_filter kept)
    refine ⟨dirs, _, ⟨named, matched, (plugins matched dirs).mpr once, rfl, ?_⟩, (), rfl, settings, ?_, ?_⟩
    · -- what can be read as an option passed the first look at it
      intro option kept
      obtain ⟨value, read⟩ := Fields.exists_matched_iff.mp ⟨settings, read⟩ option kept
      rw [← setting_congr_room option.2 (shallow option kept) ((shallow option kept).trans (by omega))] at read
      exact examine_of_setting option.2 read
    · exact (readSettings_eq_ok_iff shallow (by omega)).mpr read
    · rw [← plugin, ← passed]

def pluginNames : List String := ["plugin_search_dirs", "plugins"]

theorem isPluginKey_eq (name : String) : isPluginKey name = decide (name ∈ pluginNames) := by
  simp [isPluginKey, pluginNames]

theorem exists_pluginDirs_iff {value : Json} :
    (∃ dirs, PluginDirs value dirs) ↔ value = .null ∨ ∃ dirs, value.IsList Json.IsText dirs := by
  constructor
  · rintro ⟨_, _ | listed⟩
    · exact .inl rfl
    · exact .inr ⟨_, listed⟩
  · rintro (rfl | ⟨dirs, listed⟩)
    · exact ⟨_, .absent⟩
    · exact ⟨_, .listed listed⟩

theorem exists_overriding_iff : (∃ o, Overriding named o) ↔
    (named.filter fun member => member.1 ∈ pluginNames).length ≤ 1 ∧
      ∀ member ∈ named,
        if member.1 ∈ pluginNames then member.2 = .null ∨ ∃ dirs, member.2.IsList Json.IsText dirs
        else ∃ value, setting maxOpen member.2 = .ok value := by
  have parts : (∃ o, Overriding named o) ↔ (∃ dirs, ReadOnce isPluginKey PluginDirs none named dirs) ∧
      ∃ settings : Fields Setting,
        Fields.Matched (fun value found => setting maxOpen value = .ok found)
          (named.filter fun member => !isPluginKey member.1) settings := by
    constructor
    · rintro ⟨o, ⟨dirs, once, _⟩, settings, read, _⟩
      exact ⟨⟨dirs, once⟩, settings, read⟩
    · rintro ⟨⟨dirs, once⟩, settings, read⟩
      exact ⟨⟨_, _⟩, ⟨dirs, once, rfl⟩, settings, read, rfl⟩
  rw [parts, exists_readOnce_iff, Fields.exists_matched_iff]
  simp only [isPluginKey_eq, exists_pluginDirs_iff, decide_eq_true_eq, and_assoc]
  refine and_congr_right fun _ => ?_
  constructor
  · rintro ⟨plugins, options⟩ member present
    split
    · rename_i plugin
      exact plugins member present plugin
    · rename_i option
      exact options member (List.mem_filter.mpr ⟨present, by simpa using option⟩)
  · intro sound
    refine ⟨fun member present plugin => ?_, fun option kept => ?_⟩
    · simpa only [if_pos plugin] using sound member present
    · obtain ⟨present, other⟩ := List.mem_filter.mp kept
      simpa only [if_neg (by simpa using other)] using sound option present

namespace Overriding

variable {o : Overrides}

theorem pluginDirs_of_isList (overriding : Overriding named o) {name : String} {value : Json} {dirs : List String}
    (present : (name, value) ∈ named) (plugin : name ∈ pluginNames) (listed : value.IsList Json.IsText dirs) :
    o.pluginDirs = some dirs := by
  obtain ⟨found, once, held⟩ := overriding.plugins
  obtain ⟨dirs', read, rfl⟩ := once.of_mem present (by simpa [isPluginKey_eq] using plugin)
  rw [held]
  rcases read with _ | listedToo
  · obtain ⟨items, ⟨⟩, _⟩ := listed
  · rw [Json.IsList.unique Json.isText_unique listed listedToo]
    rfl

theorem pluginDirs_of_null (overriding : Overriding named o)
    (empty : ∀ member ∈ named, member.1 ∈ pluginNames → member.2 = .null) : o.pluginDirs = none := by
  obtain ⟨found, once, held⟩ := overriding.plugins
  rw [held]
  cases found with
  | none => rfl
  | some dirs =>
      obtain ⟨member, present, plugin, read⟩ := once.exists_mem
      rw [empty member present (by simpa [isPluginKey_eq] using plugin)] at read
      rcases read with _ | ⟨items, ⟨⟩, _⟩
      rfl

theorem passthrough_merged (overriding : Overriding named o) : ∃ settings : Fields Setting,
    Fields.Matched (fun value found => setting maxOpen value = .ok found)
      (named.filter fun member => member.1 ∉ pluginNames ++ FormatOptions.derivedNames) settings ∧
    (FormatOptions.merged o).passthrough = .ofList settings := by
  obtain ⟨settings, read, passed⟩ := overriding.options
  refine ⟨settings.filter fun option => option.1 ∉ FormatOptions.derivedNames, ?_, ?_⟩
  · have kept := read.filter fun name => decide (name ∉ FormatOptions.derivedNames)
    rw [List.filter_filter] at kept
    convert kept using 3
    simp [isPluginKey_eq, Bool.and_comm]
  · rw [FormatOptions.merged, passed]
    exact Fields.filter_ofList (fun name => decide (name ∉ FormatOptions.derivedNames)) settings

end Overriding

end

/-- Options in layers, from the text of an object to the options of a call. The object is read if and only if plugin
directories are given at most once and everything else is an option by itself; a call then has these directories, and
the options in the order in which their names first come, each with the value that it was given last. -/
theorem overrides_layered {s : String} {members : List (Json.StringToken × Json)}
    (object : Json.read s = ⟨.object members none, false⟩) (shallow : (Json.object members none).depth < 128) :
    ((∃ o, run overrides s = .ok o) ↔ ∃ named, Json.Named members named ∧
      (named.filter fun member => member.1 ∈ pluginNames).length ≤ 1 ∧
      ∀ member ∈ named,
        if member.1 ∈ pluginNames then member.2 = .null ∨ ∃ dirs, member.2.IsList Json.IsText dirs
        else ∃ value, setting maxOpen member.2 = .ok value) ∧
    ∀ o named, run overrides s = .ok o → Json.Named members named → ∀ parser interpreter file,
      let options := (FormatOptions.merged o).resolve parser interpreter file
      let passed := named.filter fun member => member.1 ∉ pluginNames ++ FormatOptions.derivedNames
      (∀ member ∈ named, member.1 ∈ pluginNames →
        ∀ dirs, member.2.IsList Json.IsText dirs → options.base.pluginDirs = dirs) ∧
      ((∀ member ∈ named, member.1 ∈ pluginNames → member.2 = .null) → options.base.pluginDirs = ["."]) ∧
      options.base.passthrough.keys = (Fields.keys passed).eraseDups ∧
      (∀ name value, options.base.passthrough.get? name = some value ↔
        ∃ json, Fields.get? passed.reverse name = some json ∧ setting maxOpen json = .ok value) ∧
      options.parser = parser ∧ options.interpreter = interpreter ∧ options.file = file := by
  have read_iff (o : Overrides) : run overrides s = .ok o ↔ ∃ named, Json.Named members named ∧
    Overriding named o := by
    rw [run_eq_ok_iff object, overrides_eq_ok_iff (by simpa [maxOpen] using Nat.le_of_lt_succ shallow) le_rfl]
    simp only [true_and]
  constructor
  · simp only [read_iff, ← exists_overriding_iff]
    constructor
    · rintro ⟨o, named, matched, overriding⟩
      exact ⟨named, matched, o, overriding⟩
    · rintro ⟨named, matched, o, overriding⟩
      exact ⟨o, named, matched, overriding⟩
  · intro o named read matched parser interpreter file options passed
    obtain ⟨_, matchedToo, overriding⟩ := (read_iff o).mp read
    obtain rfl := matched.unique matchedToo
    obtain ⟨settings, alike, passthrough⟩ := overriding.passthrough_merged
    refine ⟨?_, ?_, ?_, ?_, rfl, rfl, rfl⟩
    · intro member present plugin dirs listed
      exact congrArg (Option.getD · _) (overriding.pluginDirs_of_isList present plugin listed)
    · intro empty
      exact congrArg (Option.getD · _) (overriding.pluginDirs_of_null empty)
    · show Fields.keys (FormatOptions.merged o).passthrough = _
      rw [passthrough, Fields.keys_ofList, alike.keys_eq]
    · intro name value
      show Fields.get? (FormatOptions.merged o).passthrough name = some value ↔ _
      rw [passthrough, alike.get?_ofList_eq_some_iff]
      exact fun _ _ _ first second => Except.ok.inj (first.symm.trans second)

namespace Sample

def overridesText : String := "\x7b\"plugins\":[\"v\"],\"a\":true,\"parser\":\"x\",\"b\":[\"z\"],\"a\":\"y\"\x7d"

def overridesMembers : Fields Json :=
  [("plugins", .array [.text (.plain "v")] none), ("a", .boolean true), ("parser", .text (.plain "x")),
    ("b", .array [.text (.plain "z")] none), ("a", .text (.plain "y"))]

end Sample

open Sample in
theorem sample_overrides_layered :
    Json.read overridesText = ⟨.object (Json.plainly overridesMembers) none, false⟩ ∧
    (Json.object (Json.plainly overridesMembers) none).depth < 128 ∧
    ∃ o, run overrides overridesText = .ok o ∧ ∀ parser interpreter file,
      let options := (FormatOptions.merged o).resolve parser interpreter file
      options.base.pluginDirs = ["v"] ∧ options.base.passthrough.keys = ["a", "b"] ∧
      options.base.passthrough.get? "a" = some (.text "y") ∧ options.parser = parser := by
  have object : Json.read overridesText = ⟨.object (Json.plainly overridesMembers) none, false⟩ :=
    Json.read_written rfl rfl
  have matched := Json.named_plainly overridesMembers
  have plugins : Json.IsList Json.IsText (.array [.text (.plain "v")] none) ["v"] :=
    ⟨_, rfl, .cons (Json.isText_plain "v") .nil⟩
  obtain ⟨accepted, layered⟩ := overrides_layered object (by decide)
  have readable : ∀ member ∈ overridesMembers,
      if member.1 ∈ pluginNames then member.2 = .null ∨ ∃ dirs, member.2.IsList Json.IsText dirs
      else ∃ value, setting maxOpen member.2 = .ok value := by
    simp only [overridesMembers, List.forall_mem_cons]
    exact ⟨.inr ⟨_, plugins⟩, ⟨_, rfl⟩, ⟨_, rfl⟩, ⟨_, rfl⟩, ⟨_, rfl⟩, by simp⟩
  obtain ⟨o, read⟩ := accepted.mpr ⟨_, matched, by decide, readable⟩
  refine ⟨object, by decide, o, read, fun parser interpreter file => ?_⟩
  obtain ⟨dirs, _, names, values, same, _⟩ := layered o _ read matched parser interpreter file
  refine ⟨dirs _ (List.mem_cons_self ..) (by decide) _ plugins, names.trans (by decide), ?_, same⟩
  exact (values "a" (.text "y")).mpr ⟨_, rfl, rfl⟩

end FormatAudit.Decoder
