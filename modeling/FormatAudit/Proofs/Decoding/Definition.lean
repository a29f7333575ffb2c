import FormatAudit.Proofs.Decoding.Overrides

/-! Suite definitions from the text of an object: which objects are definitions, and what they define. -/

namespace FormatAudit.Decoder

/-- The value is the name of a parser. -/
def IsParserName (value : Json) (parser : ParserName) : Prop :=
  ∃ s, value.IsText s ∧ ParserName.ofText s = .ok parser

def IsRange (value : Json) (range : VersionRange) : Prop := ∃ s, value.IsText s ∧ VersionRange.parse s = .ok range

section

variable {room : Nat} {value : Json}

theorem parserName_eq_ok_iff {parser : ParserName} : parserName room value = .ok parser ↔
    IsParserName value parser := by
  simp only [parserName, bind_eq_ok_iff, text_eq_ok_iff, mapError_eq_ok_iff]
  rfl

theorem versionRange_eq_ok_iff {range : VersionRange} : versionRange room value = .ok range ↔
    IsRange value range := by
  simp only [versionRange, bind_eq_ok_iff, text_eq_ok_iff, mapError_eq_ok_iff]
  rfl

theorem parsers_eq_ok_iff {parsers : List ParserName} (shallow : value.depth ≤ room) :
    sequence parserName room value = .ok parsers ↔ value.IsList IsParserName parsers := by
  have read : sequence (fun _ => parserName 0) room value = .ok parsers ↔
      value.IsList (fun entry parser => parserName 0 entry = .ok parser) parsers := sequence_eq_ok_iff shallow
  simp only [parserName_eq_ok_iff] at read
  exact read

theorem ofName?_eq_some_iff {name : String} {found : Coverage} :
    Coverage.ofName? name = some found ↔ name = found.name := by
  constructor
  · intro named
    unfold Coverage.ofName? at named
    split at named <;> cases named <;> rfl
  · rintro rfl
    cases found <;> rfl

theorem coverageOfName_eq_ok_iff {name : String} {found : Coverage} :
    coverageOfName name = .ok found ↔ name = found.name := by
  rw [← ofName?_eq_some_iff, coverageOfName]
  cases Coverage.ofName? name <;> simp

theorem coverage_eq_ok_iff {token : Json.StringToken} {found : Coverage} :
    coverage room (.text token) = .ok found ↔ (Json.text token).IsText found.name := by
  simp only [coverage, bind_eq_ok_iff, ofFault_eq_ok_iff, coverageOfName_eq_ok_iff, exists_eq_right]
  constructor
  · exact fun stands => ⟨token, rfl, stands⟩
  · rintro ⟨_, ⟨⟩, stands⟩
    exact stands

theorem overrides_congr_room (shallow : value.depth ≤ room) (within : room ≤ maxOpen) {o : Overrides} :
    overrides room value = .ok o ↔ overrides maxOpen value = .ok o := by
  cases value with
  | object members stop =>
      rw [overrides_eq_ok_iff shallow within, overrides_eq_ok_iff (shallow.trans within) le_rfl]
  | _ => rfl

end

section

variable {room : Nat} {members : List (Json.StringToken × Json)} {named : Fields Json}

/-- What reading members as fields of a definition ends with. -/
@[mk_iff]
structure Gathers (room : Nat) (found : DefinitionFields) (named : Fields Json) (result : DefinitionFields) : Prop where
  known : ∀ member ∈ named, member.1 ∈ Definition.fieldNames
  parsers : ReadOnce (· = "parsers") (fun value a => sequence parserName room value = .ok a) found.parsers named
    result.parsers
  versions : ReadOnce (· = "versions") (fun value a => versionRange room value = .ok a) found.versions named
    result.versions
  coverage : ReadOnce (· = "coverage") (fun value a => Decoder.coverage room value = .ok a) found.coverage named
    result.coverage
  options : ReadOnce (· = "options") (fun value a => overrides room value = .ok a) found.options named result.options

theorem definitionMembers_eq_ok_iff {found result : DefinitionFields} :
    definitionMembers room found members = .ok result ↔
      ∃ named, Json.Named members named ∧ Gathers room found named result := by
  induction members generalizing found with
  | nil =>
      simp only [definitionMembers, Except.ok.injEq, Json.named_nil_iff, exists_eq_left]
      constructor
      · rintro rfl
        exact ⟨by simp, readOnce_nil.mpr rfl, readOnce_nil.mpr rfl, readOnce_nil.mpr rfl, readOnce_nil.mpr rfl⟩
      · rintro ⟨_, parsers, versions, coverage, options⟩
        rw [readOnce_nil] at parsers versions coverage options
        cases found
        cases result
        simp_all
  | cons member rest ih =>
      obtain ⟨key, value⟩ := member
      simp only [definitionMembers, bind_eq_ok_iff, ofFault_eq_ok_iff, Json.exists_named_cons_iff]
      refine exists_congr fun name => and_congr_right fun _ => ?_
      split
      case h_5 unknown _ _ _ _ =>
        simp_all [gathers_iff, Definition.fieldNames]
      -- of the four readings the one that the name stands for takes a step, the others do not
      all_goals
        simp only [once_eq_ok_iff, ih, gathers_iff, List.forall_mem_cons, readOnce_cons_of_key, readOnce_cons_of_other,
          Definition.fieldNames, decide_true, String.reduceEq, decide_false]
        grind

/-- The definition that the members of an object stand for. -/
structure Defines (named : Fields Json) (d : Definition) : Prop where
  known : ∀ member ∈ named, member.1 ∈ ["parsers", "versions", "coverage", "options"]
  distinct : named.Distinct
  parsers : ∃ value, named.get? "parsers" = some value ∧ value.IsList IsParserName d.parsers
  versions : OrDefault IsRange .any (named.get? "versions") d.versions
  coverage : OrDefault (fun value coverage => value.IsText coverage.name) .any (named.get? "coverage") d.coverage
  options : OrDefault (fun value o => overrides maxOpen value = .ok o) .none (named.get? "options") d.options

theorem complete_eq_ok_iff {found : DefinitionFields} {d : Definition} : found.complete = .ok d ↔
    found.parsers = some d.parsers ∧ d.versions = found.versions.getD .any ∧
      d.coverage = found.coverage.getD .any ∧
      d.options = found.options.getD .none := by
  obtain ⟨parsers, versions, coverage, options⟩ := found
  obtain ⟨_, _, _, _⟩ := d
  cases parsers <;> simp [DefinitionFields.complete, eq_comm]

theorem Gathers.distinct {found : DefinitionFields} (gathers : Gathers room ⟨none, none, none, none⟩ named found) :
    named.Distinct := by
  refine distinct_of_readOnce gathers.known ?_
  simp only [Definition.fieldNames, List.forall_mem_cons]
  exact ⟨⟨_, _, _, gathers.parsers⟩, ⟨_, _, _, gathers.versions⟩, ⟨_, _, _, gathers.coverage⟩,
    ⟨_, _, _, gathers.options⟩, by simp⟩

/-- What members are gathered as is what they stand for, if they are not too deep and the coverage is a text. -/
theorem gathers_complete_iff {d : Definition} (shallow : ∀ member ∈ named, member.2.depth ≤ room)
    (within : room ≤ maxOpen) (textual : ∀ value, ("coverage", value) ∈ named →
      ∃ token, value = .text token) :
    (∃ found, Gathers room ⟨none, none, none, none⟩ named found ∧ found.complete = .ok d) ↔
      Defines named d := by
  have parsersOnce {result : Option (List ParserName)} :
      ReadOnce (· = "parsers") (fun value a => sequence parserName room value = .ok a) none named result ↔
        ReadOnce (· = "parsers") (Json.IsList IsParserName) none named result :=
    readOnce_congr fun member present _ _ => parsers_eq_ok_iff (shallow member present)
  have versionsOnce {result : Option VersionRange} :
      ReadOnce (· = "versions") (fun value a => versionRange room value = .ok a) none named result ↔
        ReadOnce (· = "versions") IsRange none named result :=
    readOnce_congr fun _ _ _ _ => versionRange_eq_ok_iff
  have coverageOnce {result : Option Coverage} :
      ReadOnce (· = "coverage") (fun value a => Decoder.coverage room value = .ok a) none named result ↔
        ReadOnce (· = "coverage") (fun value coverage => value.IsText coverage.name) none named result := by
    refine readOnce_congr ?_
    rintro ⟨name, value⟩ present key found
    obtain rfl := of_decide_eq_true key
    obtain ⟨token, rfl⟩ := textual value present
    exact coverage_eq_ok_iff
  have optionsOnce {result : Option Overrides} :
      ReadOnce (· = "options") (fun value a => overrides room value = .ok a) none named result ↔
        ReadOnce (· = "options") (fun value o => overrides maxOpen value = .ok o) none named result :=
    readOnce_congr fun member present _ _ => overrides_congr_room (shallow member present) within
  constructor
  · rintro ⟨found, gathers, complete⟩
    have distinct := gathers.distinct
    obtain ⟨parsers, versions, coverage, options⟩ := complete_eq_ok_iff.mp complete
    refine ⟨gathers.known, distinct, ?_, ?_, ?_, ?_⟩
    · exact (readOnce_some_iff distinct).mp (parsers ▸ parsersOnce.mp gathers.parsers)
    · exact (exists_readOnce_getD_iff distinct).mp ⟨_, versionsOnce.mp gathers.versions, versions⟩
    · exact (exists_readOnce_getD_iff distinct).mp ⟨_, coverageOnce.mp gathers.coverage, coverage⟩
    · exact (exists_readOnce_getD_iff distinct).mp ⟨_, optionsOnce.mp gathers.options, options⟩
  · intro defines
    have parsers := (readOnce_some_iff defines.distinct).mpr defines.parsers
    obtain ⟨_, versionsRead, versions⟩ := (exists_readOnce_getD_iff defines.distinct).mpr defines.versions
    obtain ⟨_, coverageRead, coverage⟩ := (exists_readOnce_getD_iff defines.distinct).mpr defines.coverage
    obtain ⟨_, optionsRead, options⟩ := (exists_readOnce_getD_iff defines.distinct).mpr defines.options
    exact ⟨⟨_, _, _, _⟩, ⟨defines.known, parsersOnce.mpr parsers, versionsOnce.mpr versionsRead,
      coverageOnce.mpr coverageRead, optionsOnce.mpr optionsRead⟩,
      complete_eq_ok_iff.mpr ⟨rfl, versions, coverage, options⟩⟩

theorem definition_eq_ok_iff {d : Definition} (shallow : (Json.object members none).depth ≤ room)
    (within : room ≤ maxOpen)
    (textual : ∀ member ∈ members, member.1.value = .ok "coverage" → ∃ token, member.2 = .text token) :
    definition room (.object members none) = .ok d ↔ ∃ named, Json.Named members named ∧ Defines named d := by
  obtain ⟨room, rfl⟩ := Nat.exists_eq_add_one.mpr (Nat.zero_lt_of_lt shallow)
  rw [Json.depth, Nat.add_le_add_iff_right] at shallow
  have complete {named : Fields Json} (matched : Json.Named members named) :
      (∃ found, Gathers room ⟨none, none, none, none⟩ named found ∧ found.complete = .ok d) ↔
        Defines named d := by
    refine gathers_complete_iff (fun member present => (matched.depth_le present).trans shallow) (by omega) ?_
    intro value present
    obtain ⟨key, stands, presentToo⟩ := matched.exists_key present
    exact textual _ presentToo stands
  simp only [definition, descend, bind_eq_ok_iff, ended, exists_const, definitionMembers_eq_ok_iff, true_and]
  constructor
  · rintro ⟨found, ⟨named, matched, gathers⟩, whole⟩
    exact ⟨named, matched, (complete matched).mp ⟨found, gathers, whole⟩⟩
  · rintro ⟨named, matched, defines⟩
    obtain ⟨found, gathers, whole⟩ := (complete matched).mpr defines
    exact ⟨found, ⟨named, matched, gathers⟩, whole⟩

theorem Defines.perm {others : Fields Json} {d : Definition} (defines : Defines named d) (perm : others.Perm named) :
    Defines others d := by
  have same := Fields.get?_perm defines.distinct perm.symm
  refine ⟨?_, ?_, ?_, ?_, ?_, ?_⟩
  · exact fun member present => defines.known member (perm.mem_iff.mp present)
  · exact (perm.map Prod.fst).nodup_iff.mpr defines.distinct
  · exact (same _).symm ▸ defines.parsers
  · exact (same _).symm ▸ defines.versions
  · exact (same _).symm ▸ defines.coverage
  · exact (same _).symm ▸ defines.options

end

/-- Which texts of objects are definitions, and of what, when their coverage is a text or left out: names of the four
fields come once, the parsers are there, and each field is read as what it holds. The order of members is no matter. -/
theorem definition_of_text {s : String} {members : List (Json.StringToken × Json)}
    (object : Json.read s = ⟨.object members none, false⟩) (shallow : (Json.object members none).depth < 128)
    (textual : ∀ member ∈ members, member.1.value = .ok "coverage" → ∃ token, member.2 = .text token) :
    (∀ d, run definition s = .ok d ↔ ∃ named, Json.Named members named ∧ Defines named d) ∧
    ∀ t others, Json.read t = ⟨.object others none, false⟩ → others.Perm members →
      ∀ d, run definition t = .ok d ↔ run definition s = .ok d := by
  have read_iff {t : String} {others : List (Json.StringToken × Json)}
      (object : Json.read t = ⟨.object others none, false⟩) (perm : others.Perm members) (d : Definition) :
      run definition t = .ok d ↔ ∃ named, Json.Named others named ∧ Defines named d := by
    rw [run_eq_ok_iff object]
    refine definition_eq_ok_iff ?_ le_rfl fun member present => textual member (perm.mem_iff.mp present)
    rw [Json.depth, Json.membersDepth_perm perm]
    exact Nat.le_of_lt_succ shallow
  refine ⟨read_iff object (.refl _), ?_⟩
  intro t others objectToo perm d
  rw [read_iff object (.refl _), read_iff objectToo perm]
  constructor
  · rintro ⟨named, matched, defines⟩
    obtain ⟨renamed, matched, reordered⟩ := matched.perm perm.symm
    exact ⟨renamed, matched, defines.perm reordered⟩
  · rintro ⟨named, matched, defines⟩
    obtain ⟨renamed, matched, reordered⟩ := matched.perm perm
    exact ⟨renamed, matched, defines.perm reordered⟩

namespace Sample

def definitionText : String := "\x7b\"options\":\x7b\"x\":true\x7d,\"coverage\":\"all\",\"parsers\":[\"p\"]\x7d"

def reorderedText : String := "\x7b\"parsers\":[\"p\"],\"options\":\x7b\"x\":true\x7d,\"coverage\":\"all\"\x7d"

def optionalFields : Fields Json :=
  [("options", .object [(.plain "x", .boolean true)] none), ("coverage", .text (.plain "all"))]

def parsersField : Fields Json := [("parsers", .array [.text (.plain "p")] none)]

def definitionFields : Fields Json := optionalFields ++ parsersField

def defined : Definition := ⟨[⟨"p", by decide⟩], .any, .all, ⟨none, [("x", .boolean true)]⟩⟩

end Sample

open Sample in
theorem sample_definition_of_text :
    Json.read definitionText = ⟨.object (Json.plainly definitionFields) none, false⟩ ∧
    (Json.object (Json.plainly definitionFields) none).depth < 128 ∧
    (∀ member ∈ Json.plainly definitionFields,
      member.1.value = .ok "coverage" → ∃ token, member.2 = .text token) ∧
    run definition definitionText = .ok defined ∧ run definition reorderedText = .ok defined := by
  have object : Json.read definitionText = ⟨.object (Json.plainly definitionFields) none, false⟩ :=
    Json.read_written rfl rfl
  have objectToo : Json.read reorderedText =
    ⟨.object (Json.plainly (parsersField ++ optionalFields)) none, false⟩ :=
    Json.read_written rfl rfl
  have textual : ∀ member ∈ Json.plainly definitionFields,
      member.1.value = .ok "coverage" → ∃ token, member.2 = .text token := by
    simp [Json.plainly, definitionFields, optionalFields, parsersField]
  have distinct : definitionFields.Distinct := by
    simp [Fields.Distinct, Fields.keys, definitionFields, optionalFields, parsersField]
  have options : overrides maxOpen (.object [(.plain "x", .boolean true)] none) = .ok defined.options := rfl
  have defines : Defines definitionFields defined :=
    ⟨by decide, distinct, ⟨_, rfl, _, rfl, .cons ⟨"p", Json.isText_plain "p", rfl⟩ .nil⟩, rfl,
      Json.isText_plain "all", options⟩
  obtain ⟨read_iff, reordered⟩ := definition_of_text object (by decide) textual
  have read := (read_iff defined).mpr ⟨_, Json.named_plainly definitionFields, defines⟩
  have perm : (Json.plainly (parsersField ++ optionalFields)).Perm (Json.plainly definitionFields) :=
    List.perm_append_comm.map _
  exact ⟨object, by decide, textual, read, (reordered _ _ objectToo perm defined).mpr read⟩

end FormatAudit.Decoder
