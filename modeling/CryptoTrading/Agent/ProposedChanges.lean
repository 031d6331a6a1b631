import CryptoTrading.Agent.ConfigurationService

/-!
# What a valid proposal changes

A configuration is explicit when no key has a dot in it, no entry writes its name as null and no
asset uses the alias of a field.  For such a configuration that validates, a proposal that is valid
changes exactly what it says: the outcome validates, each changed path has the value that the model
makes of the last change for it, and the other fields of the catalog are as they were.

The accessors are the reason: among the paths of the catalog, a write that succeeds is read back
and leaves the other paths alone, unless it is to a field that entries are found by.  A write to a
path that the configuration does not have is refused.
-/

namespace CryptoTrading.Agent.Configuration

open CryptoTrading.Lib

variable {N M : Type} {py : Python N} {schema : Fields N} {model : TradingModel N M}

/-! ## §1 Explicit configurations -/

/-- No asset uses the alias of a field. -/
def AliasFree (rawConfig : Json N) : Prop :=
  ∀ fields entries asset, rawConfig = .object fields →
    Dict.findIn "assets" fields = some (.list entries) → .object asset ∈ entries →
    (Dict.findIn "decimal_places" asset).isSome = true →
    (Dict.findIn "quote_decimals" asset).isSome = true

structure Explicit (py : Python N) (schema : Fields N) (rawConfig : Json N) : Prop where
  dotFree : DotFree py schema rawConfig
  named : ∀ assets, assetEntries rawConfig = some assets → ∀ asset ∈ assets,
    ∀ entry, ListedEntry py schema asset entry → Dict.findIn "name" entry ≠ some .null
  aliasFree : AliasFree rawConfig

/-- A path whose last part is no field that entries are found by. -/
def KeyFree (path : String) : Prop := ∀ last ∈ (pathParts path).getLast?, last ∉ keyFields

/-- The path is that of a field in the catalog that may be changed. -/
def Editable (fields : List (ConfigField N)) (path : String) : Prop :=
  ∃ field ∈ fields, field.path = path ∧ field.isMutable = true

/-- The round trip of the model.  Take two lists of changes to the same fields of an explicit
    configuration.  If the first list makes a configuration that validates, and after the second
    each of the fields has the value that it has after the first, or the value that the model of
    the first dumps for it, then the second makes a configuration with the same model. -/
def TradingModel.RoundTrips (py : Python N) (schema : Fields N) (model : TradingModel N M) : Prop :=
  ∀ rawConfig fields changes changes' m, Explicit py schema rawConfig →
    buildFieldCatalog py schema rawConfig = some fields →
    (∀ change ∈ changes, Editable fields change.path) →
    (∀ path, path ∈ changes'.map ConfigChange.path ↔ path ∈ changes.map ConfigChange.path) →
    model.validate (patch py rawConfig changes) = .ok m →
    (∀ change ∈ changes',
      getValue py (patch py rawConfig changes') change.path =
          getValue py (patch py rawConfig changes) change.path ∨
        getValue py (patch py rawConfig changes') change.path =
          getValue py (model.dump m) change.path ∧
        getValue py (model.dump m) change.path ≠ .null) →
    model.validate (patch py rawConfig changes') = .ok m

theorem mapAliases_of_aliasFree {rawConfig : Json N} (h : AliasFree rawConfig) :
    mapAliases rawConfig = rawConfig := by
  cases rawConfig with
  | object fields =>
    simp only [mapAliases]
    split
    · rename_i entries hentries
      have hsame : entries.map mapAssetAlias = entries := by
        rw [List.map_congr_left (g := id), List.map_id]
        intro entry hentry
        cases entry with
        | object asset =>
          have hasset := h fields entries asset rfl hentries hentry
          simp only [mapAssetAlias, mapDecimalPlacesAlias, id]
          split
          · rename_i value hvalue
            rw [if_pos (hasset (by rw [hvalue]; rfl))]
          · rfl
        | _ => rfl
      rw [hsame, Dict.setIn_of_findIn hentries]
    · rfl
  | _ => rfl

theorem mem_of_modifyEntry {key : String} {f : Json N → Option (Json N)}
    {entries entries' : List (Json N)} (h : modifyEntry py key f entries = some entries')
    {entry' : Json N} (hmem : entry' ∈ entries') :
    entry' ∈ entries ∨ ∃ entry ∈ entries, f entry = some entry' := by
  induction entries generalizing entries' with
  | nil => cases h
  | cons entry rest ih =>
    unfold modifyEntry at h
    split at h
    · obtain ⟨new, hnew, rfl⟩ := Option.map_eq_some_iff.mp h
      rcases List.mem_cons.mp hmem with rfl | hmem
      · exact Or.inr ⟨entry, List.mem_cons_self, hnew⟩
      · exact Or.inl (List.mem_cons_of_mem entry hmem)
    · obtain ⟨rest', hrest, rfl⟩ := Option.map_eq_some_iff.mp h
      rcases List.mem_cons.mp hmem with rfl | hmem
      · exact Or.inl List.mem_cons_self
      · rcases ih hrest hmem with hold | ⟨old, hold, hf⟩
        · exact Or.inl (List.mem_cons_of_mem entry hold)
        · exact Or.inr ⟨old, List.mem_cons_of_mem entry hold, hf⟩

/-- A write below an asset gives the asset no field and takes none from it. -/
theorem isSome_findIn_setAt {asset asset' : Fields N} {part : String} {rest : List String}
    {value : Json N} (h : setAt py (.object asset) (part :: rest) value = some (.object asset'))
    (key : String) : (Dict.findIn key asset').isSome = (Dict.findIn key asset).isSome := by
  obtain ⟨inner, inner', hinner, heq⟩ := setAt_object h
  rw [Json.object.inj heq, Dict.findIn_setIn]
  by_cases hkey : key = part
  · rw [if_pos hkey, hkey, hinner]
    rfl
  · rw [if_neg hkey]

theorem aliasFree_setAt {config config' : Json N} (halias : AliasFree config)
    {parts : List String} {fieldSchema : Json N} (hparts : CatalogParts schema parts fieldSchema)
    {value : Json N} (h : setAt py config parts value = some config') : AliasFree config' := by
  -- below the assets, the write leaves each asset the fields that it has
  have hbelow : ∀ {symbol field : String} {more : List String},
      setAt py config ("assets" :: symbol :: field :: more) value = some config' →
      AliasFree config' := by
    intro symbol field more h
    cases config with
    | object fields =>
      obtain ⟨inner, inner', hinner, hset, rfl⟩ := modifyChild_object h
      rintro fields' entries' asset' hfields hentries hmem hdecimal
      obtain rfl := Json.object.inj hfields
      rw [Dict.findIn_setIn, if_pos rfl] at hentries
      obtain rfl := Option.some.inj hentries
      cases inner with
      | list entries =>
        obtain ⟨entries'', hmodify, heq⟩ := Option.map_eq_some_iff.mp hset
        obtain rfl := Json.list.inj heq
        rcases mem_of_modifyEntry hmodify hmem with hold | ⟨entry, hentry, hf⟩
        · exact halias fields entries asset' rfl hinner hold hdecimal
        · cases entry with
          | object asset =>
            -- the asset that is written has the fields that it had
            rw [isSome_findIn_setAt hf] at hdecimal ⊢
            exact halias fields entries asset rfl hinner hentry hdecimal
          | list entries₀ =>
            cases more with
            | nil => cases hf
            | cons next rest =>
              obtain ⟨list, -, heq⟩ := Option.map_eq_some_iff.mp hf
              cases heq
          | _ => cases more <;> cases hf
      | object fields₀ =>
        obtain ⟨x, y, -, heq⟩ := setAt_object hset
        cases heq
      | _ => cases hset
    | list entries =>
      obtain ⟨list, -, rfl⟩ := Option.map_eq_some_iff.mp h
      intro fields' entries' asset' hfields
      cases hfields
    | _ => cases h
  cases hparts with
  | top hfield hne =>
    -- beside the assets, the write leaves the assets as they are
    obtain ⟨fields, inner, rfl, -, rfl⟩ := assign_eq_some h
    intro fields' entries' asset' hfields hentries hmem
    obtain rfl := Json.object.inj hfields
    rw [Dict.findIn_setIn, if_neg (Ne.symm hne)] at hentries
    exact halias fields entries' asset' rfl hentries hmem
  | plain | nested | item => exact hbelow h

/-! ## §2 The accessors on the paths of the catalog -/

section Catalog

variable (hschema : SchemaLawful py schema) {rawConfig : Json N}
  (hexplicit : Explicit py schema rawConfig) {fields : List (ConfigField N)}
  (hcatalog : buildFieldCatalog py schema rawConfig = some fields)

include hschema hexplicit hcatalog

theorem pathSafe_of_mem {field : ConfigField N} (hfield : field ∈ fields)
    (hkey : KeyFree field.path) : PathSafe py rawConfig field.path := by
  obtain ⟨fieldSchema, hparts, hassets, -⟩ :=
    catalogParts_of_mem hschema hexplicit.dotFree hcatalog hfield
  apply keySafe_of_catalogParts hschema hparts hassets _ hkey
  -- the catalog of anything but a dictionary raises
  cases rawConfig with
  | list entries => cases hcatalog
  | _ => rfl

theorem pathApart_of_mem {field field' : ConfigField N} (hfield : field ∈ fields)
    (hfield' : field' ∈ fields) (hne : field.path ≠ field'.path) :
    PathApart field.path field'.path := by
  obtain ⟨s, hparts, -⟩ := catalogParts_of_mem hschema hexplicit.dotFree hcatalog hfield
  obtain ⟨s', hparts', -⟩ := catalogParts_of_mem hschema hexplicit.dotFree hcatalog hfield'
  exact apart_of_catalogParts hschema hparts hparts' fun heq => hne (pathParts_injective heq)

/-- The fields that entries are found by are locked. -/
theorem keyFree_of_isMutable {field : ConfigField N} (hfield : field ∈ fields)
    (hmutable : field.isMutable = true) : KeyFree field.path := by
  obtain ⟨fieldSchema, hparts, -, hbuilt⟩ :=
    catalogParts_of_mem hschema hexplicit.dotFree hcatalog hfield
  intro last hlast hkey
  have hlocked := hschema.keyField_locked hparts ⟨last, hlast, hkey⟩
  rw [hbuilt] at hmutable
  rw [buildConfigField, hlocked] at hmutable
  cases hmutable

/-- Two fields of the catalog with one path agree on whether it may be changed. -/
theorem isMutable_eq_of_path_eq {field field' : ConfigField N} (hfield : field ∈ fields)
    (hfield' : field' ∈ fields) (heq : field.path = field'.path) :
    field.isMutable = field'.isMutable := by
  obtain ⟨fieldSchema, hparts, -, hbuilt⟩ :=
    catalogParts_of_mem hschema hexplicit.dotFree hcatalog hfield
  obtain ⟨fieldSchema', hparts', -, hbuilt'⟩ :=
    catalogParts_of_mem hschema hexplicit.dotFree hcatalog hfield'
  rw [← heq] at hparts'
  obtain rfl := catalogParts_unique hschema hparts hparts'
  rw [hbuilt, hbuilt']
  rfl

omit hschema in
/-- The path of a change has the parts of a path of the catalog. -/
theorem catalogParts_of_editable {path : String} (hschema : SchemaLawful py schema)
    (h : Editable fields path) :
    ∃ fieldSchema, CatalogParts schema (pathParts path) fieldSchema := by
  obtain ⟨field, hfield, rfl, -⟩ := h
  obtain ⟨fieldSchema, hparts, -⟩ := catalogParts_of_mem hschema hexplicit.dotFree hcatalog hfield
  exact ⟨fieldSchema, hparts⟩

/-- Changes to fields that may be changed do not interfere with any field of the schema. -/
theorem fits_of_editable {changes : List (ConfigChange N)}
    (h : ∀ change ∈ changes, Editable fields change.path) :
    Slots.Lawful.Fits (PathSafe py) PathApart rawConfig (changeWrites changes)
      fun path => ∃ fieldSchema, CatalogParts schema (pathParts path) fieldSchema := by
  intro e he
  obtain ⟨change, hchange, rfl⟩ := List.mem_map.mp he
  obtain ⟨field, hfield, hpath, hmutable⟩ := h change hchange
  have hkey := keyFree_of_isMutable hschema hexplicit hcatalog hfield hmutable
  have hsafe := pathSafe_of_mem hschema hexplicit hcatalog hfield hkey
  obtain ⟨s, hparts⟩ := catalogParts_of_editable hexplicit hcatalog hschema (h change hchange)
  refine ⟨hpath ▸ hsafe, fun path hq => ?_⟩
  have hparts' : ∃ s', CatalogParts schema (pathParts path) s' := by
    rcases hq with hq | hq
    · obtain ⟨e', he', rfl⟩ := List.mem_map.mp hq
      obtain ⟨change', hchange', rfl⟩ := List.mem_map.mp he'
      exact catalogParts_of_editable hexplicit hcatalog hschema (h change' hchange')
    · exact hq
  obtain ⟨s', hparts'⟩ := hparts'
  by_cases heq : change.path = path
  · exact Or.inl heq
  · exact Or.inr (apart_of_catalogParts hschema hparts hparts' fun h => heq (pathParts_injective h))

theorem aliasFree_patch {changes : List (ConfigChange N)}
    (h : ∀ change ∈ changes, Editable fields change.path) :
    AliasFree (patch py rawConfig changes) := by
  have hparts : ∀ e ∈ changeWrites changes,
      ∃ fieldSchema, CatalogParts schema (pathParts e.1) fieldSchema := by
    intro e he
    obtain ⟨change, hchange, rfl⟩ := List.mem_map.mp he
    exact catalogParts_of_editable hexplicit hcatalog hschema (h change hchange)
  apply run_invariant_along AliasFree _ hexplicit.aliasFree (along_of_forall hparts rawConfig)
  rintro config e halias ⟨fieldSchema, hparts⟩
  rcases Slots.Lawful.write_cases (slots py) config e with hset | ⟨-, heq⟩
  · exact aliasFree_setAt halias hparts hset
  · rw [heq]
    exact halias

/-- A field of the schema that no change is to keeps its value. -/
theorem getValue_patch_of_notMem {changes : List (ConfigChange N)}
    (h : ∀ change ∈ changes, Editable fields change.path) {path : String}
    (hpath : ∃ fieldSchema, CatalogParts schema (pathParts path) fieldSchema)
    (hother : ∀ change ∈ changes, change.path ≠ path) :
    getValue py (patch py rawConfig changes) path = getValue py rawConfig path := by
  have hfits := fits_of_editable hschema hexplicit hcatalog h
  apply lawful_slots.get_run_apart (hfits.mono (by simp))
  intro e he
  obtain ⟨change, hchange, rfl⟩ := List.mem_map.mp he
  exact ((hfits _ he).2 path (Or.inr hpath)).resolve_left (hother change hchange)

/-- Of the changes to a field the last one counts. -/
theorem getValue_patch_last {before after : List (ConfigChange N)} {change : ConfigChange N}
    (h : ∀ c ∈ before ++ change :: after, Editable fields c.path)
    (hhas : canSet py rawConfig change.path = true) (hlast : ∀ c ∈ after, c.path ≠ change.path) :
    getValue py (patch py rawConfig (before ++ change :: after)) change.path = change.newValue := by
  have hfits := fits_of_editable hschema hexplicit hcatalog h
  have hsplit : changeWrites (before ++ change :: after) =
      changeWrites before ++ (change.path, change.newValue) :: changeWrites after := by
    simp [changeWrites]
  unfold patch
  rw [hsplit] at hfits ⊢
  apply lawful_slots.get_run_last (hfits.mono (by simp)) hhas
  intro htouch
  obtain ⟨e, he, heq⟩ := List.mem_map.mp htouch
  obtain ⟨c, hc, rfl⟩ := List.mem_map.mp he
  exact hlast c hc heq

end Catalog

/-- The laws of the accessors on the catalog of a configuration: what is not there is not written,
    what is written is read back, and other fields keep their values. -/
structure AccessorLaws (py : Python N) (rawConfig : Json N) (fields : List (ConfigField N)) :
    Prop where
  refused : ∀ path value, setValue py rawConfig path value = none ↔
    canSet py rawConfig path = false
  get_set : ∀ field ∈ fields, KeyFree field.path → ∀ value config,
    setValue py rawConfig field.path value = some config → getValue py config field.path = value
  frame : ∀ field ∈ fields, KeyFree field.path → ∀ value config,
    setValue py rawConfig field.path value = some config →
    ∀ field' ∈ fields, field'.path ≠ field.path →
      getValue py config field'.path = getValue py rawConfig field'.path

theorem accessorLaws (hschema : SchemaLawful py schema) {rawConfig : Json N}
    (hexplicit : Explicit py schema rawConfig) {fields : List (ConfigField N)}
    (hcatalog : buildFieldCatalog py schema rawConfig = some fields) :
    AccessorLaws py rawConfig fields where
  refused := by
    intro path value
    rw [canSet, ← isSome_setAt py rawConfig (pathParts path) value, Option.isSome_eq_false_iff,
      Option.isNone_iff_eq_none]
    rfl
  get_set := by
    intro field hfield hkey value config hset
    exact lawful_slots.get_set (pathSafe_of_mem hschema hexplicit hcatalog hfield hkey) hset
  frame := by
    intro field hfield hkey value config hset field' hfield' hne
    exact lawful_slots.get_set_apart (pathSafe_of_mem hschema hexplicit hcatalog hfield hkey)
      (pathApart_of_mem hschema hexplicit hcatalog hfield hfield' (Ne.symm hne)) hset

/-! ## §3 A valid proposal -/

variable (py) in
theorem path_normalizeChangeValue (config : Json N) (change : ConfigChange N) :
    (normalizeChangeValue py config change).path = change.path := by
  unfold normalizeChangeValue
  split <;> rfl

variable (py) in
/-- A value is normalized to what the model dumps, or it is left. -/
theorem normalizeChangeValue_cases (config : Json N) (change : ConfigChange N) :
    getValue py config change.path ≠ .null ∧
        (normalizeChangeValue py config change).newValue = getValue py config change.path ∨
      normalizeChangeValue py config change = change := by
  unfold normalizeChangeValue
  split
  · exact Or.inr rfl
  · rename_i hne
    exact Or.inl ⟨hne, rfl⟩

@[simp] theorem normalizeChangeValue_idem (config : Json N) (change : ConfigChange N) :
    normalizeChangeValue py config (normalizeChangeValue py config change) =
      normalizeChangeValue py config change := by
  cases hvalue : getValue py config change.path <;>
    simp [normalizeChangeValue, hvalue]

variable (py) in
theorem editable_normalized {fields : List (ConfigField N)} {changes : List (ConfigChange N)}
    (heditable : ∀ change ∈ changes, Editable fields change.path) (dumped : Json N) :
    ∀ change ∈ changes.map (normalizeChangeValue py dumped), Editable fields change.path := by
  intro change' hchange'
  obtain ⟨change, hchange, rfl⟩ := List.mem_map.mp hchange'
  rw [path_normalizeChangeValue]
  exact heditable change hchange

theorem patch_append (config : Json N) (changes changes' : List (ConfigChange N)) :
    patch py config (changes ++ changes') = patch py (patch py config changes) changes' := by
  rw [patch, changeWrites, List.map_append, run_append]
  rfl

/-- What a valid proposal does to a configuration: with the model `m` of the proposed values. -/
structure ChangesExactly (py : Python N) (model : TradingModel N M) (rawConfig : Json N)
    (fields : List (ConfigField N)) (changes : List (ConfigChange N)) (config : Json N) (m : M) :
    Prop where
  proposed : model.validate (patch py rawConfig changes) = .ok m
  validates : model.validate config = .ok m
  changed : ∀ before change after, changes = before ++ change :: after →
    (∀ later ∈ after, later.path ≠ change.path) →
    getValue py config change.path =
      (normalizeChangeValue py (model.dump m) change).newValue
  unchanged : ∀ field ∈ fields, (∀ change ∈ changes, change.path ≠ field.path) →
    getValue py config field.path = getValue py rawConfig field.path
  locked : ∀ field ∈ fields, field.isMutable = false →
    getValue py config field.path = getValue py rawConfig field.path

/-- The last change to a path that some change is to. -/
theorem exists_last_change {changes : List (ConfigChange N)} {path : String}
    (h : path ∈ changes.map ConfigChange.path) :
    ∃ before change after, changes = before ++ change :: after ∧ change.path = path ∧
      ∀ later ∈ after, later.path ≠ path := by
  induction changes with
  | nil => cases h
  | cons change rest ih =>
    by_cases hrest : path ∈ rest.map ConfigChange.path
    · obtain ⟨before, last, after, rfl, hlast, hafter⟩ := ih hrest
      exact ⟨change :: before, last, after, rfl, hlast, hafter⟩
    · rcases List.mem_cons.mp h with rfl | hmem
      · refine ⟨[], change, rest, rfl, rfl, fun later hlater heq => hrest ?_⟩
        exact List.mem_map.mpr ⟨later, hlater, heq⟩
      · exact absurd hmem hrest

section Valid

variable (hschema : SchemaLawful py schema) (hmodel : model.RoundTrips py schema)
  {rawConfig : Json N} (hexplicit : Explicit py schema rawConfig) {fields : List (ConfigField N)}
  (hcatalog : buildFieldCatalog py schema rawConfig = some fields)
  {changes : List (ConfigChange N)} (heditable : ∀ change ∈ changes, Editable fields change.path)
  (hhas : ∀ change ∈ changes, canSet py rawConfig change.path = true)

include hschema hexplicit hcatalog heditable hhas

/-- **The normalized changes, written any number of times**, leave each changed field with the
    normalized value of the last change to it. -/
theorem getValue_normalized (dumped : Json N) (earlier : List (ConfigChange N))
    (hearlier : ∀ change ∈ earlier, Editable fields change.path)
    {before after : List (ConfigChange N)} {change : ConfigChange N}
    (hsplit : changes = before ++ change :: after) (hlast : ∀ c ∈ after, c.path ≠ change.path) :
    getValue py (patch py rawConfig
        (earlier ++ changes.map (normalizeChangeValue py dumped))) change.path =
      (normalizeChangeValue py dumped change).newValue := by
  have hpath := path_normalizeChangeValue py dumped
  rw [hsplit, List.map_append, List.map_cons, ← List.append_assoc]
  rw [← hpath change]
  apply getValue_patch_last hschema hexplicit hcatalog
  · intro c hc
    rw [List.append_assoc, ← List.map_cons, ← List.map_append, ← hsplit] at hc
    rcases List.mem_append.mp hc with hc | hc
    · exact hearlier c hc
    · obtain ⟨c', hc', rfl⟩ := List.mem_map.mp hc
      rw [hpath]
      exact heditable c' hc'
  · rw [hpath]
    exact hhas change (by simp [hsplit])
  · intro c hc
    obtain ⟨c', hc', rfl⟩ := List.mem_map.mp hc
    rw [hpath, hpath]
    exact hlast c' hc'

include hmodel

/-- The normalized changes make a configuration with the same model. -/
theorem validate_normalized {m : M}
    (hvalid : model.validate (patch py rawConfig changes) = .ok m) :
    model.validate (patch py rawConfig
      (changes.map (normalizeChangeValue py (model.dump m)))) = .ok m := by
  have hpath := path_normalizeChangeValue py (model.dump m)
  apply hmodel rawConfig fields changes _ m hexplicit hcatalog heditable _ hvalid
  · intro change' hchange'
    obtain ⟨change₀, hchange₀, rfl⟩ := List.mem_map.mp hchange'
    -- the value is that of the last change to the field
    obtain ⟨before, change, after, hsplit, hchange, hafter⟩ :=
      exists_last_change (List.mem_map_of_mem (f := ConfigChange.path) hchange₀)
    rw [hpath, ← hchange]
    rw [← hchange] at hafter
    have hnew := getValue_normalized hschema hexplicit hcatalog heditable hhas (model.dump m) []
      (by simp) hsplit hafter
    rw [List.nil_append] at hnew
    rw [hnew]
    rcases normalizeChangeValue_cases py (model.dump m) change with ⟨hne, heq⟩ | heq
    · exact Or.inr ⟨heq, hne⟩
    · left
      rw [heq, hsplit]
      rw [getValue_patch_last hschema hexplicit hcatalog (hsplit ▸ heditable)
        (hhas change (by simp [hsplit])) hafter]
  · intro path
    have hpaths : ConfigChange.path ∘ normalizeChangeValue py (model.dump m) = ConfigChange.path :=
      funext hpath
    rw [List.map_map, hpaths]

/-- Writing the normalized changes a second time keeps the model. -/
theorem validate_normalized_twice {m : M}
    (hvalid : model.validate (patch py rawConfig changes) = .ok m)
    {changes' : List (ConfigChange N)}
    (hchanges' : changes.map (normalizeChangeValue py (model.dump m)) = changes') :
    model.validate (patch py rawConfig (changes' ++ changes')) = .ok m := by
  have hvalid' := validate_normalized hschema hmodel hexplicit hcatalog heditable hhas hvalid
  have heditable' := editable_normalized py heditable (model.dump m)
  rw [hchanges'] at hvalid' heditable'
  apply hmodel rawConfig fields changes' _ m hexplicit hcatalog heditable' (by simp) hvalid'
  intro change' hchange'
  left
  -- both patches end with the value of the last change to the field
  have hmem : change' ∈ changes.map (normalizeChangeValue py (model.dump m)) := by
    simpa [hchanges'] using hchange'
  obtain ⟨change₀, hchange₀, rfl⟩ := List.mem_map.mp hmem
  obtain ⟨before, change, after, hsplit, hchange, hafter⟩ :=
    exists_last_change (List.mem_map_of_mem (f := ConfigChange.path) hchange₀)
  rw [path_normalizeChangeValue, ← hchange]
  rw [← hchange] at hafter
  have hvalue := getValue_normalized hschema hexplicit hcatalog heditable hhas (model.dump m)
  rw [hchanges'] at hvalue
  rw [hvalue changes' heditable' hsplit hafter]
  exact (hvalue [] (by simp) hsplit hafter).symm

/-- What `apply_proposal` makes of a proposal with normalized changes. -/
theorem applyProposal_normalized {m : M}
    (hvalid : model.validate (patch py rawConfig changes) = .ok m)
    {changes' : List (ConfigChange N)}
    (hchanges' : changes.map (normalizeChangeValue py (model.dump m)) = changes')
    {proposal : ConfigurationProposal N} (hproposal : proposal.changes = changes') :
    (applyProposal py model rawConfig proposal).config =
      patch py rawConfig (changes' ++ changes') := by
  have hvalid' := validate_normalized hschema hmodel hexplicit hcatalog heditable hhas hvalid
  have heditable' := editable_normalized py heditable (model.dump m)
  rw [hchanges'] at hvalid' heditable'
  have halias := aliasFree_patch hschema hexplicit hcatalog heditable'
  have hpython : model.validatePython (patch py rawConfig changes') =
      (.ok m, patch py rawConfig changes') := by
    rw [TradingModel.validatePython, mapAliases_of_aliasFree halias, hvalid']
  -- normalizing the changes again does nothing
  have hnormal : changes'.map (normalizeChangeValue py (model.dump m)) = changes' := by
    rw [← hchanges', List.map_map, List.map_inj_left]
    intro change hchange
    rw [Function.comp_apply, normalizeChangeValue_idem]
  simp only [applyProposal, hproposal, hpython, hnormal, patch_append]

/-- **Changes that may be made and lead to a model** are made exactly. -/
theorem changesExactly {m : M} (hvalid : model.validate (patch py rawConfig changes) = .ok m)
    {proposal : ConfigurationProposal N}
    (hproposal : proposal.changes = changes.map (normalizeChangeValue py (model.dump m))) :
    ChangesExactly py model rawConfig fields changes
      (applyProposal py model rawConfig proposal).config m := by
  generalize hchanges' : changes.map (normalizeChangeValue py (model.dump m)) = changes'
    at hproposal
  have heditable' := editable_normalized py heditable (model.dump m)
  rw [hchanges'] at heditable'
  rw [applyProposal_normalized hschema hmodel hexplicit hcatalog heditable hhas hvalid hchanges'
    hproposal]
  have hunchanged : ∀ field ∈ fields, (∀ change ∈ changes, change.path ≠ field.path) →
      getValue py (patch py rawConfig (changes' ++ changes')) field.path =
        getValue py rawConfig field.path := by
    intro field hfield hother
    obtain ⟨fieldSchema, hparts, -⟩ :=
      catalogParts_of_mem hschema hexplicit.dotFree hcatalog hfield
    apply getValue_patch_of_notMem hschema hexplicit hcatalog _ ⟨fieldSchema, hparts⟩
    · intro change' hchange'
      have hmem : change' ∈ changes.map (normalizeChangeValue py (model.dump m)) := by
        simpa [hchanges'] using hchange'
      obtain ⟨change, hchange, rfl⟩ := List.mem_map.mp hmem
      rw [path_normalizeChangeValue]
      exact hother change hchange
    · intro change' hchange'
      exact heditable' change' (by simpa using hchange')
  refine ⟨hvalid, ?_, ?_, hunchanged, ?_⟩
  · exact validate_normalized_twice hschema hmodel hexplicit hcatalog heditable hhas hvalid
      hchanges'
  · intro before change after hsplit hafter
    rw [← hchanges']
    exact getValue_normalized hschema hexplicit hcatalog heditable hhas _ _
      (hchanges' ▸ heditable') hsplit hafter
  · intro field hfield hlocked
    apply hunchanged field hfield
    intro change hchange heq
    -- a field of that path is changed, so it may be changed
    obtain ⟨field', hfield', hpath, hmutable⟩ := heditable change hchange
    have hsame := isMutable_eq_of_path_eq hschema hexplicit hcatalog hfield hfield'
      (heq.symm.trans hpath.symm)
    rw [hlocked, hmutable] at hsame
    cases hsame

end Valid

/-- **A valid proposal for an explicit configuration that validates** changes exactly what it says,
    and the accessors of its catalog do not interfere. -/
theorem valid_proposal_changes_exactly (hschema : SchemaLawful py schema)
    (hmodel : model.RoundTrips py schema) {rawConfig : Json N}
    (hexplicit : Explicit py schema rawConfig) {m₀ : M}
    (hraw : (model.validatePython rawConfig).1 = .ok m₀) {fields : List (ConfigField N)}
    (hcatalog : buildFieldCatalog py schema rawConfig = some fields) :
    AccessorLaws py rawConfig fields ∧
      ∀ proposal proposal' result,
        validateProposal py schema model rawConfig rawConfig proposal = some (result, proposal') →
        result.valid = true →
        ∃ m, ChangesExactly py model rawConfig fields proposal.changes
          (applyProposal py model rawConfig proposal').config m := by
  refine ⟨accessorLaws hschema hexplicit hcatalog, ?_⟩
  intro proposal proposal' result hresult hvalid
  obtain ⟨fields', m, hproposal⟩ := proposalValid_of_valid hraw hresult hvalid
  obtain rfl : fields = fields' := Option.some.inj (hcatalog.symm.trans hproposal.catalog)
  -- what validation has checked of the changes: listed, mutable, present, and valid together
  have heditable : ∀ change ∈ proposal.changes, Editable fields change.path := by
    intro change hchange
    obtain ⟨field, hfield, hmutable⟩ := hproposal.editable change hchange
    obtain ⟨field', hfield', heq⟩ := List.mem_map.mp (Dict.mem_of_get?_ofList hfield)
    obtain ⟨hpath, rfl⟩ := Prod.mk.inj heq
    exact ⟨field', hfield', hpath, hmutable⟩
  have hhas : ∀ change ∈ proposal.changes, canSet py rawConfig change.path = true := by
    intro change hchange
    have hfits := fits_of_editable hschema hexplicit hcatalog heditable
    exact lawful_slots.has_of_along (hfits.mono (by simp)) hproposal.written
      (change.path, change.newValue) (List.mem_map_of_mem hchange)
  have hproposed : model.validate (patch py rawConfig proposal.changes) = .ok m := by
    have halias := aliasFree_patch hschema hexplicit hcatalog heditable
    rw [← mapAliases_of_aliasFree halias]
    exact hproposal.validates
  refine ⟨m, changesExactly hschema hmodel hexplicit hcatalog heditable hhas hproposed ?_⟩
  rw [hproposal.left]

/-! ## §4 Concrete configurations -/

/-- What Python makes of the values of the sample configurations. -/
def samplePython : Python ℚ where
  str
    | .string s => s
    | .null => "None"
    | _ => ""
  repr
    | .string s => "'" ++ s ++ "'"
    | .null => "None"
    | _ => ""
  isNonzero n := n ≠ 0
  equal
    | .null, .null => true
    | .bool b, .bool c => b = c
    | .number n, .number m => n = m
    | .string s, .string t => s = t
    | _, _ => false

/-- The schema of a value that may be changed or not. -/
def valueSchema (type : String) (isMutable : Bool) : Json ℚ :=
  .object [("type", .string type), ("mutable", .bool isMutable)]

/-- The schema of a value that may be missing. -/
def optionalSchema (schema : Json ℚ) (isMutable : Bool) : Json ℚ :=
  .object [("anyOf", .list [schema, .object [("type", .string "null")]]), ("default", .null),
    ("mutable", .bool isMutable)]

def refSchema (name : String) : Json ℚ := .object [("$ref", .string ("#/$defs/" ++ name))]

def consensusProperties : Fields ℚ :=
  [("buy", valueSchema "number" true), ("sell", valueSchema "number" true)]

def strategyProperties : Fields ℚ :=
  [("name", optionalSchema (.object [("type", .string "string")]) false),
    ("enabled", valueSchema "boolean" true),
    ("schedule", optionalSchema (.object [("type", .string "object")]) true)]

def sampleAssetProperties : Fields ℚ :=
  [("base_ticker_symbol", valueSchema "string" false),
    ("quote_ticker_symbol", valueSchema "string" false),
    ("quote_decimals", valueSchema "integer" false),
    ("strategies", optionalSchema
      (.object [("type", .string "array"), ("items", refSchema "StrategyConfig")]) true),
    ("consensus", optionalSchema (refSchema "ConsensusFactor") true),
    ("enabled", valueSchema "boolean" true)]

/-- A part of the schema of `TradingConfig`. -/
def sampleSchema : Fields ℚ :=
  [("$defs", .object [
      ("Asset", .object [("properties", .object sampleAssetProperties)]),
      ("ConsensusFactor", .object [("properties", .object consensusProperties)]),
      ("StrategyConfig", .object [("properties", .object strategyProperties)])]),
    ("properties", .object [
      ("assets", .object [("type", .string "array"), ("items", refSchema "Asset"),
        ("mutable", .bool false)]),
      ("dynamic_quantity", optionalSchema (.object [("type", .string "string")]) true)])]


/-- A configuration with one asset; what the asset writes for its decimals and its strategies, and
    the threshold for buying. -/
def sampleConfig (decimals : String) (strategies : List (Json ℚ)) (buy : Json ℚ) : Json ℚ :=
  .object [("assets", .list [.object [("base_ticker_symbol", .string "BTC"),
    ("quote_ticker_symbol", .string "USD"), (decimals, .number 2), ("strategies", .list strategies),
    ("consensus", .object [("buy", buy), ("sell", .number (1 / 2))]), ("enabled", .bool true)]])]

def sampleStrategy (name : Json ℚ) (enabled : Bool) (schedule : Json ℚ) : Json ℚ :=
  .object [("name", name), ("enabled", .bool enabled), ("schedule", schedule)]

/-- A strategy with that name. -/
def namedStrategy (name : String) : Json ℚ := sampleStrategy (.string name) true .null

def sampleChange (path : String) (newValue : Json ℚ) : ConfigChange ℚ :=
  ⟨path, .null, newValue, ""⟩

/-- The value at a path after a proposal that is valid. -/
def outcome {M : Type} (model : TradingModel ℚ M) (rawConfig : Json ℚ) (change : ConfigChange ℚ)
    (path : String) : Option (Json ℚ) :=
  match validateProposal samplePython sampleSchema model rawConfig rawConfig
    ⟨"sample", [change], [], "", none, none, none⟩ with
  | some (result, proposal) =>
    if result.valid then
      some (getValue samplePython (applyProposal samplePython model rawConfig proposal).config path)
    else none
  | none => none

/-- A model that accepts every configuration, and what it dumps. -/
def acceptingModel (dumped : Json ℚ) : TradingModel ℚ Unit where
  validate _ := .ok ()
  dump _ := dumped

def buyPath : String := "assets.BTC_USD.consensus.buy"

/-- A model of the threshold for buying, which it reads from a number or a text. -/
def thresholdModel : TradingModel ℚ ℚ where
  validate config :=
    match getValue samplePython config buyPath with
    | .number n => .ok n
    | .string "2" => .ok 2
    | input => .error ⟨[⟨[.name "assets", .index 0, .name "consensus", .name "buy"],
        "float_parsing", "Input should be a valid number", input⟩], by simp⟩
  dump n := sampleConfig "quote_decimals" [namedStrategy "Trend"] (.number n)

/-- What kind a field of the sample asset is. -/
theorem sample_fieldKind {field : String} {fieldSchema : Json ℚ}
    (h : (field, fieldSchema) ∈ assetProperties sampleSchema) :
    fieldKind (schemaDefs sampleSchema) fieldSchema =
      if field = "strategies" then .items strategyProperties
      else if field = "consensus" then .nested consensusProperties else .plain := by
  have hmem : (field, fieldSchema) ∈ sampleAssetProperties := h
  simp only [sampleAssetProperties, List.mem_cons, Prod.mk.injEq, List.not_mem_nil,
    or_false] at hmem
  rcases hmem with ⟨rfl, rfl⟩ | ⟨rfl, rfl⟩ | ⟨rfl, rfl⟩ | ⟨rfl, rfl⟩ | ⟨rfl, rfl⟩ | ⟨rfl, rfl⟩ <;>
    rfl

/-- Every field of the schema, and the properties that it is one of. -/
theorem sample_field {parts : List String} {fieldSchema : Json ℚ}
    (h : CatalogParts sampleSchema parts fieldSchema) :
    ∃ last ∈ parts.getLast?, (last, fieldSchema) ∈ schemaProperties sampleSchema ++
      sampleAssetProperties ++ consensusProperties ++ strategyProperties := by
  -- the parts of a field are those of the thresholds or those of a strategy
  have hparts : ∀ {field sub : String} {s t : Json ℚ} {properties : Fields ℚ},
      (field, s) ∈ assetProperties sampleSchema →
      (fieldKind (schemaDefs sampleSchema) s = .nested properties ∨
        fieldKind (schemaDefs sampleSchema) s = .items properties) → (sub, t) ∈ properties →
      (sub, t) ∈ consensusProperties ++ strategyProperties := by
    intro field sub s t properties hfield hkind hsub
    rw [sample_fieldKind hfield] at hkind
    split at hkind
    · obtain rfl : strategyProperties = properties := by simpa using hkind
      exact List.mem_append_right _ hsub
    · split at hkind
      · obtain rfl : consensusProperties = properties := by simpa using hkind
        exact List.mem_append_left _ hsub
      · simp at hkind
  cases h with
  | top hfield hne =>
    refine ⟨_, rfl, ?_⟩
    simp only [List.mem_append]
    exact Or.inl (Or.inl (Or.inl hfield))
  | plain hfield hkind =>
    refine ⟨_, rfl, ?_⟩
    simp only [List.mem_append]
    exact Or.inl (Or.inl (Or.inr hfield))
  | nested hfield hkind hsub =>
    refine ⟨_, rfl, ?_⟩
    rw [List.append_assoc]
    exact List.mem_append_right _ (hparts hfield (Or.inl hkind) hsub)
  | item hfield hkind hsub =>
    refine ⟨_, rfl, ?_⟩
    rw [List.append_assoc]
    exact List.mem_append_right _ (hparts hfield (Or.inr hkind) hsub)

theorem lawful_sampleSchema : SchemaLawful samplePython sampleSchema where
  nodup_top := by decide +kernel
  nodup := by decide +kernel
  nodup_sub := by
    intro field fieldSchema properties hfield hkind
    rw [sample_fieldKind hfield] at hkind
    split at hkind
    · obtain rfl : strategyProperties = properties := by simpa using hkind
      decide +kernel
    · split at hkind
      · obtain rfl : consensusProperties = properties := by simpa using hkind
        decide +kernel
      · simp at hkind
  name_dotFree := by
    intro parts fieldSchema h
    -- no name has a dot, and no key field may be changed: both are read off the properties
    have hnames : ∀ p ∈ schemaProperties sampleSchema ++ sampleAssetProperties ++
        consensusProperties ++ strategyProperties, '.' ∉ p.1.toList := by decide +kernel
    have hfields : ∀ p ∈ assetProperties sampleSchema, '.' ∉ p.1.toList := by decide +kernel
    constructor
    · intro last hlast
      obtain ⟨last', hlast', hmem⟩ := sample_field h
      obtain rfl := Option.some.inj (hlast'.symm.trans hlast)
      exact hnames _ hmem
    · intro field hfield
      cases h with
      | top hmem hne => cases hfield
      | plain hmem | nested hmem | item hmem =>
        obtain rfl := Option.some.inj hfield
        exact hfields _ hmem
  keyField_plain := by
    intro field fieldSchema hfield hkey
    have hnames : ∀ name ∈ keyFields, name ≠ "strategies" ∧ name ≠ "consensus" := by decide
    obtain ⟨hstrategies, hconsensus⟩ := hnames field hkey
    rw [sample_fieldKind hfield, if_neg hstrategies, if_neg hconsensus]
  keyField_locked := by
    rintro parts fieldSchema h ⟨last, hlast, hkey⟩
    have hlocked : ∀ p ∈ schemaProperties sampleSchema ++ sampleAssetProperties ++
        consensusProperties ++ strategyProperties, p.1 ∈ keyFields →
        deriveMutable samplePython (asFields p.2) = false := by decide +kernel
    obtain ⟨last', hlast', hmem⟩ := sample_field h
    obtain rfl := Option.some.inj (hlast'.symm.trans hlast)
    exact hlocked _ hmem hkey

/-- The model is read from one path, so that a patch that leaves the path alone keeps it. -/
theorem roundTrips_thresholdModel : thresholdModel.RoundTrips samplePython sampleSchema := by
  intro rawConfig fields changes changes' m hexplicit hcatalog heditable hpaths hvalid hvalues
  have hkept : getValue samplePython (patch samplePython rawConfig changes') buyPath =
        getValue samplePython (patch samplePython rawConfig changes) buyPath ∨
      getValue samplePython (patch samplePython rawConfig changes') buyPath = .number m := by
    by_cases hmem : buyPath ∈ changes'.map ConfigChange.path
    · obtain ⟨change, hchange, hpath⟩ := List.mem_map.mp hmem
      have hvalue := hvalues change hchange
      rw [hpath] at hvalue
      exact hvalue.imp_right And.left
    · -- nothing is written to the path
      have hparts : CatalogParts sampleSchema (pathParts buyPath) (valueSchema "number" true) := by
        have hbuy : ("consensus", optionalSchema (refSchema "ConsensusFactor") true) ∈
            assetProperties sampleSchema := by
          show _ ∈ sampleAssetProperties
          simp [sampleAssetProperties]
        exact CatalogParts.nested hbuy rfl List.mem_cons_self
      have hleft : ∀ list : List (ConfigChange ℚ), (∀ c ∈ list, Editable fields c.path) →
          buyPath ∉ list.map ConfigChange.path →
          getValue samplePython (patch samplePython rawConfig list) buyPath =
            getValue samplePython rawConfig buyPath := by
        intro list hlist hnot
        apply getValue_patch_of_notMem lawful_sampleSchema hexplicit hcatalog hlist ⟨_, hparts⟩
        intro c hc heq
        exact hnot (heq ▸ List.mem_map_of_mem hc)
      have heditable' : ∀ c ∈ changes', Editable fields c.path := by
        intro c hc
        obtain ⟨c', hc', heq⟩ := List.mem_map.mp ((hpaths c.path).mp (List.mem_map_of_mem hc))
        exact heq ▸ heditable c' hc'
      left
      rw [hleft changes' heditable' hmem, hleft changes heditable (mt (hpaths _).mpr hmem)]
  simp only [thresholdModel] at hvalid ⊢
  rcases hkept with heq | heq
  · rw [heq]
    exact hvalid
  · rw [heq]

/-- The sample configuration, with a threshold. -/
def thresholdConfig : Json ℚ := sampleConfig "quote_decimals" [namedStrategy "Trend"] (.number 1)

theorem explicit_thresholdConfig : Explicit samplePython sampleSchema thresholdConfig := by
  -- the only entry of a list of the only asset is the strategy
  have hentry : ∀ assets, assetEntries thresholdConfig = some assets → ∀ asset ∈ assets,
      assetSymbol samplePython asset = "BTC_USD" ∧
        ∀ entry, ListedEntry samplePython sampleSchema asset entry →
          .object entry = namedStrategy "Trend" := by
    intro assets hassets asset hasset
    obtain rfl := Option.some.inj hassets
    obtain rfl := List.mem_singleton.mp hasset
    refine ⟨rfl, ?_⟩
    rintro entry ⟨field, fieldSchema, properties, entries, hfield, hkind, hentries, hmem⟩
    rw [sample_fieldKind hfield] at hkind
    split at hkind
    · rename_i hstrategies
      rw [hstrategies] at hentries
      obtain rfl := Option.some.inj hentries
      exact List.mem_singleton.mp hmem
    · split at hkind <;> simp at hkind
  refine ⟨⟨?_, ?_⟩, ?_, ?_⟩
  · intro assets hassets asset hasset
    rw [(hentry assets hassets asset hasset).1]
    decide
  · intro assets hassets asset hasset entry hlisted
    have htrend := (hentry assets hassets asset hasset).2 entry hlisted
    rw [namedStrategy, sampleStrategy] at htrend
    rw [Json.object.inj htrend]
    decide
  · intro assets hassets asset hasset entry hlisted
    have htrend := (hentry assets hassets asset hasset).2 entry hlisted
    rw [namedStrategy, sampleStrategy] at htrend
    rw [Json.object.inj htrend]
    simp [Dict.findIn]
  · intro fields entries asset hfields hentries hmem hdecimal
    obtain rfl := Json.object.inj hfields
    obtain rfl := Json.list.inj (Option.some.inj hentries)
    obtain rfl := Json.object.inj (List.mem_singleton.mp hmem)
    rfl

def thresholdFields : List (ConfigField ℚ) :=
  (buildFieldCatalog samplePython sampleSchema thresholdConfig).getD []

/-- The threshold is proposed as a text, and written as a number. -/
theorem text_threshold_normalized :
    (AccessorLaws samplePython thresholdConfig thresholdFields ∧
      ∀ proposal proposal' result,
        validateProposal samplePython sampleSchema thresholdModel thresholdConfig thresholdConfig
          proposal = some (result, proposal') →
        result.valid = true →
        ∃ m, ChangesExactly samplePython thresholdModel thresholdConfig thresholdFields
          proposal.changes
          (applyProposal samplePython thresholdModel thresholdConfig proposal').config m) ∧
      outcome thresholdModel thresholdConfig (sampleChange buyPath (.string "2")) buyPath =
        some (.number 2) :=
  ⟨valid_proposal_changes_exactly lawful_sampleSchema roundTrips_thresholdModel
    explicit_thresholdConfig rfl rfl, rfl⟩

/-- Whether the catalog of a configuration has a field with that path. -/
def listed (rawConfig : Json ℚ) (path : String) (isMutable : Bool) : Bool :=
  (buildFieldCatalog samplePython sampleSchema rawConfig).any fun fields =>
    fields.any fun field => field.path = path && field.isMutable == isMutable

def trendNamePath : String := "assets.BTC_USD.strategies.Trend.name"

/-- A field that may be changed is not read back as it was set, since the configuration does not
    have it, and neither is the name of a strategy, since its path goes by the old one.  Of
    configurations that are not explicit: a change to a field of the strategy
    `Trend.schedule` is made to the schedule of `Trend`, a locked field appears under its own name,
    and a change to a strategy without a name is undone. -/
theorem accessors_interfere :
    (listed thresholdConfig "dynamic_quantity" true = true ∧
      setValue samplePython thresholdConfig "dynamic_quantity" (.string "eq") = none ∧
      getValue samplePython ((slots samplePython).write thresholdConfig
        ("dynamic_quantity", .string "eq")) "dynamic_quantity" = .null) ∧
    (listed thresholdConfig trendNamePath false = true ∧
      (setValue samplePython thresholdConfig trendNamePath (.string "Hammer")).isSome = true ∧
      getValue samplePython ((slots samplePython).write thresholdConfig
        (trendNamePath, .string "Hammer")) trendNamePath = .null) ∧
    (let schedule := "assets.BTC_USD.strategies.Trend.schedule"
      let config (schedule : Json ℚ) := sampleConfig "quote_decimals"
        [sampleStrategy (.string "Trend") true schedule, namedStrategy "Trend.schedule"] (.number 1)
      let rawConfig := config (.object [("enabled", .bool true)])
      listed rawConfig schedule true = true ∧
      getValue samplePython rawConfig schedule = .object [("enabled", .bool true)] ∧
      outcome (acceptingModel (config (.object []))) rawConfig
          (sampleChange (schedule ++ ".enabled") (.bool false)) schedule =
        some (.object [("enabled", .bool false)])) ∧
    (let decimals := "assets.BTC_USD.quote_decimals"
      let rawConfig := sampleConfig "decimal_places" [] (.number 1)
      listed rawConfig decimals false = true ∧
      getValue samplePython rawConfig decimals = .null ∧
      outcome (acceptingModel (sampleConfig "quote_decimals" [] (.number 2))) rawConfig
          (sampleChange buyPath (.number 2)) decimals = some (.number 2)) ∧
    (let enabled := "assets.BTC_USD.strategies.None.enabled"
      let config (name : Json ℚ) (enabled : Bool) := sampleConfig "quote_decimals"
        [sampleStrategy name enabled .null, namedStrategy "None"] (.number 1)
      let model : TradingModel ℚ Bool :=
        ⟨fun config => .ok ((getValue samplePython config enabled).isTrue samplePython),
          fun enabled => config (.string "Hammer") enabled⟩
      listed (config .null true) enabled true = true ∧
      outcome model (config .null true) (sampleChange enabled (.bool false)) enabled =
        some (.bool true)) :=
  ⟨⟨rfl, rfl, rfl⟩, ⟨rfl, rfl, rfl⟩, ⟨rfl, rfl, rfl⟩, ⟨rfl, rfl, rfl⟩, ⟨rfl, rfl⟩⟩

end CryptoTrading.Agent.Configuration
