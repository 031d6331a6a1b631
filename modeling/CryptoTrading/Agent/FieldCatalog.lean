import CryptoTrading.Agent.ConfigurationPaths

/-!
# The catalog of configuration fields

Embeds `build_field_catalog` of `src/agent/configuration/schema.py`, with the functions that read a
schema.

The schema of a configuration (`TradingConfig.json_schema()`) is a parameter, a document of its
own.  Its properties below `assets` are those of an asset: a plain field, an object whose
properties are fields, or a list whose entries have fields.  A field is described by its path, its
value and whether it may be changed; descriptions, types and constraints are left out.

Different fields have paths that are apart (`apart_of_catalogParts`), and a path that ends in a
field that may be changed is safe to write, provided that no key has a dot in it.
-/

namespace CryptoTrading.Agent.Configuration

open CryptoTrading.Lib

variable {N : Type}

/-! ## §1 Reading a schema -/

def Json.isText : Json N → String → Bool
  | .string s, text => s = text
  | _, _ => false

/-- The entries of a dictionary under a key; a schema has nothing else there. -/
def asFields : Json N → Fields N
  | .object fields => fields
  | _ => []

def subFields (fields : Fields N) (key : String) : Fields N :=
  asFields ((Dict.findIn key fields).getD (.object []))

/-- A schema with the keywords of another that it lacks. -/
def withMissing (schema extra : Fields N) : Fields N :=
  schema ++ extra.filter fun e => e.1 ∉ schema.map Prod.fst

/-- `_unwrap_optional`. -/
def unwrapOptional (fieldSchema : Fields N) : Fields N :=
  match Dict.findIn "anyOf" fieldSchema with
  | some (.list branches) =>
    -- the first branch that is not null
    match branches.find? fun b => !(Dict.findIn "type" (asFields b)).any (·.isText "null") with
    | some branch => withMissing (asFields branch)
        (fieldSchema.filter fun e => e.1 ≠ "anyOf" ∧ e.1 ≠ "default")
    | none => fieldSchema
  | _ => fieldSchema

/-- `_resolve_ref`. -/
def resolveRef (fieldSchema schemaDefs : Fields N) : Fields N :=
  match Dict.findIn "$ref" fieldSchema with
  | some (.string ref) =>
    let refName := String.ofList ((ref.toList.splitOn '/').getLast?.getD [])
    withMissing (subFields schemaDefs refName) (fieldSchema.filter fun e => e.1 ≠ "$ref")
  | _ => fieldSchema

/-- `_effective_schema`. -/
def effectiveSchema (fieldSchema schemaDefs : Fields N) : Fields N :=
  let unwrappedSchema := unwrapOptional fieldSchema
  if (Dict.findIn "$ref" unwrappedSchema).isSome then resolveRef unwrappedSchema schemaDefs
  else unwrappedSchema

variable (py : Python N)

/-- `bool(value)`. -/
def Json.isTrue : Json N → Bool
  | .null => false
  | .bool b => b
  | .number n => py.isNonzero n
  | .string s => s ≠ ""
  | .list entries => !entries.isEmpty
  | .object fields => !fields.isEmpty

/-- `_derive_mutable`. -/
def deriveMutable (fieldSchema : Fields N) : Bool :=
  match Dict.findIn "mutable" fieldSchema with
  | some flag => flag.isTrue py
  | none => ((Dict.findIn "mutable" (unwrapOptional fieldSchema)).getD (.bool false)).isTrue py

/-- What a field of an asset is, with the properties of its parts. -/
inductive FieldKind (N : Type) where
  | items (properties : Fields N)
  | nested (properties : Fields N)
  | plain

/-- The cases of `_build_asset_fields`. -/
def fieldKind (schemaDefs : Fields N) (fieldSchema : Json N) : FieldKind N :=
  let effective := effectiveSchema (asFields fieldSchema) schemaDefs
  if (Dict.findIn "type" effective).any (·.isText "array") then
    .items (subFields (effectiveSchema (subFields effective "items") schemaDefs) "properties")
  else if (Dict.findIn "properties" effective).isSome then
    .nested (subFields effective "properties")
  else .plain

section Schema

variable (schema : Fields N)

def schemaDefs : Fields N := subFields schema "$defs"

def schemaProperties : Fields N := subFields schema "properties"

/-- The properties of an asset. -/
def assetProperties : Fields N :=
  subFields (effectiveSchema (subFields (subFields (schemaProperties schema) "assets") "items")
    (schemaDefs schema)) "properties"

/-! ## §2 The catalog -/

/-- `ConfigField`. -/
structure ConfigField (N : Type) where
  path : String
  value : Json N
  isMutable : Bool

/-- `_build_config_field`. -/
def buildConfigField (rawConfig : Json N) (path : String) (fieldSchema : Json N) : ConfigField N :=
  ⟨path, getValue py rawConfig path, deriveMutable py (asFields fieldSchema)⟩

/-- What a loop over a value goes through; other values raise. -/
def Json.iterate : Json N → Option (List (Json N))
  | .list entries => some entries
  | .object fields => some (fields.map fun e => .string e.1)
  | .string s => some (s.toList.map fun c => .string (String.singleton c))
  | _ => none

/-- What a loop over `value or []` goes through. -/
def Json.iterateOrNone (value : Json N) : Option (List (Json N)) :=
  if value.isTrue py then value.iterate else some []

/-- An asset that is not a dictionary raises. -/
def Json.asDict : Json N → Option (Fields N)
  | .object fields => some fields
  | _ => none

/-- `raw_config.get("assets", [])`, entry by entry. -/
def assetEntries (rawConfig : Json N) : Option (List (Fields N)) :=
  match rawConfig with
  | .object fields => do
    let entries ← ((Dict.findIn "assets" fields).getD (.list [])).iterate
    entries.mapM Json.asDict
  | _ => none

/-- `_build_top_level_fields`. -/
def buildTopLevelFields (rawConfig : Json N) : List (ConfigField N) :=
  ((schemaProperties schema).filter fun e => e.1 ≠ "assets").map fun e =>
    buildConfigField py rawConfig e.1 e.2

/-- The part of `_build_list_item_fields` for one entry. -/
def buildEntryFields (rawConfig : Json N) (symbol fieldName : String)
    (itemProperties : Fields N) (listEntry : Json N) : List (ConfigField N) :=
  match listEntry with
  | .object entry =>
    let key := entryKey py entry
    if key = "" then []
    else itemProperties.map fun e =>
      buildConfigField py rawConfig (".".intercalate ["assets", symbol, fieldName, key, e.1]) e.2
  | _ => []

/-- `_build_list_item_fields`. -/
def buildListItemFields (rawConfig : Json N) (symbol fieldName : String) (listEntries : Json N)
    (itemProperties : Fields N) : Option (List (ConfigField N)) :=
  if itemProperties.isEmpty then some []
  else (listEntries.iterateOrNone py).map fun entries =>
    entries.flatMap (buildEntryFields py rawConfig symbol fieldName itemProperties)

/-- `_build_nested_object_fields`. -/
def buildNestedObjectFields (rawConfig : Json N) (symbol fieldName : String)
    (nestedProperties : Fields N) : List (ConfigField N) :=
  nestedProperties.map fun e =>
    buildConfigField py rawConfig (".".intercalate ["assets", symbol, fieldName, e.1]) e.2

/-- The part of `_build_asset_fields` for one field of an asset. -/
def buildAssetField (rawConfig : Json N) (assetEntry : Fields N) (property : String × Json N) :
    Option (List (ConfigField N)) :=
  let (fieldName, fieldSchema) := property
  let symbol := assetSymbol py assetEntry
  match fieldKind (schemaDefs schema) fieldSchema with
  | .items properties =>
    buildListItemFields py rawConfig symbol fieldName
      ((Dict.findIn fieldName assetEntry).getD (.list [])) properties
  | .nested properties =>
    some (buildNestedObjectFields py rawConfig symbol fieldName properties)
  | .plain =>
    some [buildConfigField py rawConfig (".".intercalate ["assets", symbol, fieldName]) fieldSchema]

/-- `_build_asset_fields`. -/
def buildAssetFields (rawConfig : Json N) : Option (List (ConfigField N)) := do
  let assets ← assetEntries rawConfig
  let fields ← (assets.flatMap fun asset => (assetProperties schema).map fun p => (asset, p)).mapM
    fun (asset, property) => buildAssetField py schema rawConfig asset property
  some fields.flatten

/-- `build_field_catalog`; nothing where it raises. -/
def buildFieldCatalog (rawConfig : Json N) : Option (List (ConfigField N)) := do
  let assetFields ← buildAssetFields py schema rawConfig
  some (buildTopLevelFields py schema rawConfig ++ assetFields)

end Schema

/-! ## §3 The paths of the catalog -/

section Paths

variable {py} {schema : Fields N}

/-- The parts of the path of a field in the catalog of some configuration, with its schema. -/
inductive CatalogParts (schema : Fields N) : List String → Json N → Prop where
  | top {field : String} {fieldSchema : Json N}
      (hfield : (field, fieldSchema) ∈ schemaProperties schema) (hne : field ≠ "assets") :
      CatalogParts schema [field] fieldSchema
  | plain {symbol field : String} {fieldSchema : Json N}
      (hfield : (field, fieldSchema) ∈ assetProperties schema)
      (hkind : fieldKind (schemaDefs schema) fieldSchema = .plain) :
      CatalogParts schema ["assets", symbol, field] fieldSchema
  | nested {symbol field sub : String} {fieldSchema subSchema : Json N} {properties : Fields N}
      (hfield : (field, fieldSchema) ∈ assetProperties schema)
      (hkind : fieldKind (schemaDefs schema) fieldSchema = .nested properties)
      (hsub : (sub, subSchema) ∈ properties) :
      CatalogParts schema ["assets", symbol, field, sub] subSchema
  | item {symbol field key sub : String} {fieldSchema subSchema : Json N}
      {properties : Fields N} (hfield : (field, fieldSchema) ∈ assetProperties schema)
      (hkind : fieldKind (schemaDefs schema) fieldSchema = .items properties)
      (hsub : (sub, subSchema) ∈ properties) :
      CatalogParts schema ["assets", symbol, field, key, sub] subSchema

/-- What the service relies on in the schema of its configuration: names are unique and have no
    dot, and the fields that an entry is found by are plain and locked. -/
structure SchemaLawful (py : Python N) (schema : Fields N) : Prop where
  nodup_top : ((schemaProperties schema).map Prod.fst).Nodup
  nodup : ((assetProperties schema).map Prod.fst).Nodup
  nodup_sub : ∀ {field fieldSchema properties}, (field, fieldSchema) ∈ assetProperties schema →
    fieldKind (schemaDefs schema) fieldSchema = .nested properties ∨
      fieldKind (schemaDefs schema) fieldSchema = .items properties →
    (properties.map Prod.fst).Nodup
  name_dotFree : ∀ {parts fieldSchema}, CatalogParts schema parts fieldSchema →
    (∀ last ∈ parts.getLast?, '.' ∉ last.toList) ∧ ∀ field ∈ parts[2]?, '.' ∉ field.toList
  keyField_plain : ∀ {field fieldSchema}, (field, fieldSchema) ∈ assetProperties schema →
    field ∈ keyFields → fieldKind (schemaDefs schema) fieldSchema = .plain
  keyField_locked : ∀ {parts fieldSchema}, CatalogParts schema parts fieldSchema →
    (∃ last ∈ parts.getLast?, last ∈ keyFields) → deriveMutable py (asFields fieldSchema) = false

theorem value_unique {fields : Fields N} (hnodup : (fields.map Prod.fst).Nodup) {key : String}
    {value value' : Json N} (h : (key, value) ∈ fields) (h' : (key, value') ∈ fields) :
    value = value' := by
  have hfind := (Dict.findIn_eq_some_iff key value hnodup).mpr h
  have hfind' := (Dict.findIn_eq_some_iff key value' hnodup).mpr h'
  exact Option.some.inj (hfind.symm.trans hfind')

/-- A path has one schema. -/
theorem catalogParts_unique (hschema : SchemaLawful py schema) {parts : List String}
    {fieldSchema fieldSchema' : Json N} (h : CatalogParts schema parts fieldSchema)
    (h' : CatalogParts schema parts fieldSchema') : fieldSchema = fieldSchema' := by
  cases h with
  | top hfield hne =>
    cases h' with
    | top hfield' hne' => exact value_unique hschema.nodup_top hfield hfield'
  | plain hfield hkind =>
    cases h' with
    | plain hfield' hkind' => exact value_unique hschema.nodup hfield hfield'
  | nested hfield hkind hsub =>
    cases h' with
    | nested hfield' hkind' hsub' =>
      obtain rfl := value_unique hschema.nodup hfield hfield'
      obtain rfl := FieldKind.nested.inj (hkind.symm.trans hkind')
      exact value_unique (hschema.nodup_sub hfield (Or.inl hkind)) hsub hsub'
  | item hfield hkind hsub =>
    cases h' with
    | item hfield' hkind' hsub' =>
      obtain rfl := value_unique hschema.nodup hfield hfield'
      obtain rfl := FieldKind.items.inj (hkind.symm.trans hkind')
      exact value_unique (hschema.nodup_sub hfield (Or.inr hkind)) hsub hsub'

/-- **Different fields have paths that are apart.** -/
theorem apart_of_catalogParts (hschema : SchemaLawful py schema) {parts parts' : List String}
    {fieldSchema fieldSchema' : Json N} (h : CatalogParts schema parts fieldSchema)
    (h' : CatalogParts schema parts' fieldSchema') (hne : parts ≠ parts') : Apart parts parts' := by
  -- paths of two kinds below one asset differ in the field: a field has one kind
  have hkinds : ∀ {field field' : String} {s s' : Json N},
      (field, s) ∈ assetProperties schema → (field', s') ∈ assetProperties schema →
      fieldKind (schemaDefs schema) s ≠ fieldKind (schemaDefs schema) s' → field ≠ field' := by
    rintro field field' s s' hs hs' hkind rfl
    exact hkind (by rw [value_unique hschema.nodup hs hs'])
  cases h with
  | @top field fieldSchema hfield hassets =>
    -- a field of the configuration itself, and never the list of assets
    cases h' with
    | top hfield' hassets' => exact Or.inl fun heq => hne (by rw [heq])
    | plain | nested | item => exact Or.inl hassets
  | @plain symbol field fieldSchema hfield hkind =>
    -- a field of an asset: they differ in the asset or in the field
    cases h' with
    | top hfield' hassets' => exact Or.inl hassets'.symm
    | @plain symbol' field' =>
      by_cases hsymbol : symbol = symbol'
      · exact Or.inr (Or.inr (Or.inl fun heq => hne (by rw [hsymbol, heq])))
      · exact Or.inr (Or.inl hsymbol)
    | nested hfield' hkind' | item hfield' hkind' =>
      exact Or.inr (Or.inr (Or.inl (hkinds hfield hfield' (by simp [hkind, hkind']))))
  | @nested symbol field sub fieldSchema subSchema properties hfield hkind hsub =>
    -- a field of an object in an asset: they may also differ in the inner field
    cases h' with
    | top hfield' hassets' => exact Or.inl hassets'.symm
    | @nested symbol' field' sub' =>
      by_cases hsymbol : symbol = symbol'
      · by_cases hfields : field = field'
        · refine Or.inr (Or.inr (Or.inr (Or.inl fun heq => hne ?_)))
          rw [hsymbol, hfields, heq]
        · exact Or.inr (Or.inr (Or.inl hfields))
      · exact Or.inr (Or.inl hsymbol)
    | plain hfield' hkind' | item hfield' hkind' =>
      exact Or.inr (Or.inr (Or.inl (hkinds hfield hfield' (by simp [hkind, hkind']))))
  | @item symbol field key sub fieldSchema subSchema properties hfield hkind hsub =>
    -- a field of an item: they may also differ in the key of the item
    cases h' with
    | top hfield' hassets' => exact Or.inl hassets'.symm
    | @item symbol' field' key' sub' =>
      by_cases hsymbol : symbol = symbol'
      · by_cases hfields : field = field'
        · by_cases hkeys : key = key'
          · refine Or.inr (Or.inr (Or.inr (Or.inr (Or.inl fun heq => hne ?_))))
            rw [hsymbol, hfields, hkeys, heq]
          · exact Or.inr (Or.inr (Or.inr (Or.inl hkeys)))
        · exact Or.inr (Or.inr (Or.inl hfields))
      · exact Or.inr (Or.inl hsymbol)
    | plain hfield' hkind' | nested hfield' hkind' =>
      exact Or.inr (Or.inr (Or.inl (hkinds hfield hfield' (by simp [hkind, hkind']))))

/-- The assets are a list, as they are where the catalog of a configuration has some. -/
def AssetsListed (rawConfig : Json N) : Prop :=
  ∃ fields entries, rawConfig = .object fields ∧ Dict.findIn "assets" fields = some (.list entries)

theorem not_isList_of_findListEntry {entries : List (Json N)} {key : String} {entry : Json N}
    (h : findListEntry py entries key = some entry) : entry.isList = false := by
  have hkey := List.find?_some h
  cases entry with
  | object fields => rfl
  | _ => simp [Json.key?] at hkey

/-- A path with one part, or with two of which the second is no key field, is safe from any value
    that is found. -/
theorem keySafe_tail {value : Json N} {parts : List String}
    (h : ∀ part ∈ parts.tail, part ∉ keyFields) : KeySafe py value parts := by
  induction parts generalizing value with
  | nil => trivial
  | cons part rest ih =>
    refine ⟨fun _ next hnext => h next ?_, fun inner _ => ih fun part' hpart' => h part' ?_⟩
    · exact List.mem_of_mem_head? hnext
    · exact List.mem_of_mem_tail hpart'

/-- **A path of the catalog that does not end in a key field is safe to write.** -/
theorem keySafe_of_catalogParts (hschema : SchemaLawful py schema) {rawConfig : Json N}
    {parts : List String} {fieldSchema : Json N} (h : CatalogParts schema parts fieldSchema)
    (hassets : parts.tail ≠ [] → AssetsListed rawConfig) (hobject : rawConfig.isList = false)
    (hlast : ∀ last ∈ parts.getLast?, last ∉ keyFields) : KeySafe py rawConfig parts := by
  -- below the list of assets the parts are the symbol, the field and what leads into the field
  have hbelow : ∀ {symbol field : String} {more : List String},
      parts = "assets" :: symbol :: field :: more → field ∉ keyFields →
      (∀ value : Json N, KeySafe py value more) → KeySafe py rawConfig parts := by
    rintro symbol field more rfl hfield hmore
    obtain ⟨fields, entries, rfl, hentries⟩ := hassets (by simp)
    refine ⟨by simp [Json.isList], fun list hlist => ?_⟩
    obtain rfl : .list entries = list := Option.some.inj (hentries.symm.trans hlist)
    refine ⟨fun _ next hnext => ?_, fun entry hentry => ?_⟩
    · rw [← Option.some.inj hnext]
      exact hfield
    · refine ⟨fun hlist => ?_, fun inner _ => hmore inner⟩
      rw [not_isList_of_findListEntry hentry] at hlist
      cases hlist
  cases h with
  | top hfield hne =>
    refine ⟨fun hlist => ?_, fun inner _ => trivial⟩
    rw [hobject] at hlist
    cases hlist
  | plain hfield hkind => exact hbelow rfl (hlast _ rfl) fun value => trivial
  | nested hfield hkind hsub =>
    refine hbelow rfl (fun hkey => ?_) fun value => keySafe_tail (by simp)
    rw [hschema.keyField_plain hfield hkey] at hkind
    cases hkind
  | item hfield hkind hsub =>
    refine hbelow rfl (fun hkey => ?_) fun value => keySafe_tail ?_
    · rw [hschema.keyField_plain hfield hkey] at hkind
      cases hkind
    · simpa using hlast _ rfl

end Paths

/-! ## §4 The catalog of a configuration -/

section Catalog

variable {py} {schema : Fields N} {rawConfig : Json N}

/-- An entry of one of the lists of an asset that the catalog goes through. -/
def ListedEntry (py : Python N) (schema asset entry : Fields N) : Prop :=
  ∃ field fieldSchema properties entries, (field, fieldSchema) ∈ assetProperties schema ∧
    fieldKind (schemaDefs schema) fieldSchema = .items properties ∧
    ((Dict.findIn field asset).getD (.list [])).iterateOrNone py = some entries ∧
    .object entry ∈ entries

/-- No symbol of an asset and no key of an entry has a dot in it. -/
structure DotFree (py : Python N) (schema : Fields N) (rawConfig : Json N) : Prop where
  symbol : ∀ assets, assetEntries rawConfig = some assets → ∀ asset ∈ assets,
    '.' ∉ (assetSymbol py asset).toList
  key : ∀ assets, assetEntries rawConfig = some assets → ∀ asset ∈ assets,
    ∀ entry, ListedEntry py schema asset entry → '.' ∉ (entryKey py entry).toList

/-- Joining parts without dots and splitting again. -/
theorem pathParts_intercalate {parts : List String} (hne : parts ≠ [])
    (h : ∀ part ∈ parts, '.' ∉ part.toList) : pathParts (".".intercalate parts) = parts := by
  unfold pathParts
  rw [String.toList_intercalate]
  have hdot : ".".toList = ['.'] := by decide
  rw [hdot, List.splitOn_intercalate]
  · simp [Function.comp_def]
  · intro part hpart
    obtain ⟨text, htext, rfl⟩ := List.mem_map.mp hpart
    exact h text htext
  · simpa using hne

/-- Where a field below an asset comes from. -/
inductive AssetField (py : Python N) (schema asset : Fields N) : List String → Json N → Prop where
  | plain {field : String} {fieldSchema : Json N}
      (hfield : (field, fieldSchema) ∈ assetProperties schema)
      (hkind : fieldKind (schemaDefs schema) fieldSchema = .plain) :
      AssetField py schema asset ["assets", assetSymbol py asset, field] fieldSchema
  | nested {field sub : String} {fieldSchema subSchema : Json N} {properties : Fields N}
      (hfield : (field, fieldSchema) ∈ assetProperties schema)
      (hkind : fieldKind (schemaDefs schema) fieldSchema = .nested properties)
      (hsub : (sub, subSchema) ∈ properties) :
      AssetField py schema asset ["assets", assetSymbol py asset, field, sub] subSchema
  | item {field sub : String} {fieldSchema subSchema : Json N} {properties entry : Fields N}
      (hfield : (field, fieldSchema) ∈ assetProperties schema)
      (hkind : fieldKind (schemaDefs schema) fieldSchema = .items properties)
      (hsub : (sub, subSchema) ∈ properties) (hentry : ListedEntry py schema asset entry) :
      AssetField py schema asset
        ["assets", assetSymbol py asset, field, entryKey py entry, sub] subSchema

theorem assetField_of_mem {asset : Fields N} {property : String × Json N}
    {fields : List (ConfigField N)} {field : ConfigField N}
    (hproperty : property ∈ assetProperties schema)
    (h : buildAssetField py schema rawConfig asset property = some fields)
    (hfield : field ∈ fields) :
    ∃ parts fieldSchema, AssetField py schema asset parts fieldSchema ∧
      field = buildConfigField py rawConfig (".".intercalate parts) fieldSchema := by
  obtain ⟨name, nameSchema⟩ := property
  simp only [buildAssetField] at h
  -- a plain property is one field, a model or a list of models one for each of its own properties
  cases hkind : fieldKind (schemaDefs schema) nameSchema with
  | plain =>
    rw [hkind] at h
    obtain rfl := Option.some.inj h
    exact ⟨_, _, AssetField.plain hproperty hkind, List.mem_singleton.mp hfield⟩
  | nested properties =>
    rw [hkind] at h
    obtain rfl := Option.some.inj h
    obtain ⟨⟨sub, subSchema⟩, hsub, rfl⟩ := List.mem_map.mp hfield
    exact ⟨_, _, AssetField.nested hproperty hkind hsub, rfl⟩
  | items properties =>
    rw [hkind] at h
    simp only [buildListItemFields] at h
    split at h
    · obtain rfl := Option.some.inj h
      cases hfield
    · obtain ⟨entries, hentries, rfl⟩ := Option.map_eq_some_iff.mp h
      obtain ⟨listEntry, hmem, hbuilt⟩ := List.mem_flatMap.mp hfield
      cases listEntry with
      | object entry =>
        simp only [buildEntryFields] at hbuilt
        split at hbuilt
        · cases hbuilt
        · obtain ⟨⟨sub, subSchema⟩, hsub, rfl⟩ := List.mem_map.mp hbuilt
          have hlisted : ListedEntry py schema asset entry :=
            ⟨name, nameSchema, properties, entries, hproperty, hkind, hentries, hmem⟩
          exact ⟨_, _, AssetField.item hproperty hkind hsub hlisted, rfl⟩
      | _ => cases hbuilt

theorem mem_of_mapM_eq_some {A B : Type} {f : A → Option B} {as : List A} {bs : List B}
    (h : as.mapM f = some bs) {b : B} (hb : b ∈ bs) : ∃ a ∈ as, f a = some b := by
  induction as generalizing bs with
  | nil =>
    obtain rfl := Option.some.inj h
    cases hb
  | cons a rest ih =>
    rw [List.mapM_cons] at h
    obtain ⟨b₀, hb₀, h⟩ := Option.bind_eq_some_iff.mp h
    obtain ⟨bs', hbs', h⟩ := Option.bind_eq_some_iff.mp h
    obtain rfl := Option.some.inj h
    rcases List.mem_cons.mp hb with rfl | hb
    · exact ⟨a, List.mem_cons_self, hb₀⟩
    · obtain ⟨a', ha', hf⟩ := ih hbs' hb
      exact ⟨a', List.mem_cons_of_mem a ha', hf⟩

/-- Assets that are dictionaries come in a list. -/
theorem assetsListed_of_mem {assets : List (Fields N)} {asset : Fields N}
    (h : assetEntries rawConfig = some assets) (hmem : asset ∈ assets) :
    AssetsListed rawConfig := by
  cases rawConfig with
  | object fields =>
    obtain ⟨entries, hentries, hmap⟩ := Option.bind_eq_some_iff.mp h
    obtain ⟨entry, hentry, hdict⟩ := mem_of_mapM_eq_some hmap hmem
    obtain rfl : entry = .object asset := by
      cases entry with
      | object fields' => rw [Option.some.inj hdict]
      | _ => cases hdict
    cases hfind : Dict.findIn "assets" fields with
    | none =>
      rw [hfind] at hentries
      obtain rfl := Option.some.inj hentries
      cases hentry
    | some value =>
      rw [hfind] at hentries
      -- of a dictionary or a text the keys or letters are taken, and none of them is a dictionary
      cases value with
      | list entries' => exact ⟨fields, entries', rfl, hfind⟩
      | object fields' =>
        obtain rfl := Option.some.inj hentries
        simp at hentry
      | string text =>
        obtain rfl := Option.some.inj hentries
        simp at hentry
      | _ => cases hentries
  | _ => cases h

/-- **Every field of the catalog**: the parts of its path, and where it is below an asset. -/
theorem mem_buildFieldCatalog {fields : List (ConfigField N)} {field : ConfigField N}
    (h : buildFieldCatalog py schema rawConfig = some fields) (hfield : field ∈ fields) :
    ∃ parts fieldSchema, field = buildConfigField py rawConfig (".".intercalate parts) fieldSchema ∧
      (parts.tail = [] ∧ CatalogParts schema parts fieldSchema ∨
        ∃ assets, assetEntries rawConfig = some assets ∧ ∃ asset ∈ assets,
          AssetField py schema asset parts fieldSchema) := by
  obtain ⟨assetFields, hassets, hfields⟩ := Option.bind_eq_some_iff.mp h
  obtain rfl := Option.some.inj hfields
  rcases List.mem_append.mp hfield with htop | hbelow
  · obtain ⟨⟨name, nameSchema⟩, hname, rfl⟩ := List.mem_map.mp htop
    obtain ⟨hname, hne⟩ := List.mem_filter.mp hname
    refine ⟨[name], nameSchema, ?_, Or.inl ⟨rfl, CatalogParts.top hname (of_decide_eq_true hne)⟩⟩
    rw [String.intercalate_singleton]
  · obtain ⟨assets, hentries, hbuilt⟩ := Option.bind_eq_some_iff.mp hassets
    obtain ⟨lists, hlists, hflat⟩ := Option.bind_eq_some_iff.mp hbuilt
    obtain rfl := Option.some.inj hflat
    obtain ⟨list, hlist, hmem⟩ := List.mem_flatten.mp hbelow
    obtain ⟨⟨asset, property⟩, hpair, hbuild⟩ := mem_of_mapM_eq_some hlists hlist
    obtain ⟨asset', hasset', hmap⟩ := List.mem_flatMap.mp hpair
    obtain ⟨property', hproperty', heq⟩ := List.mem_map.mp hmap
    obtain ⟨rfl, rfl⟩ := Prod.mk.inj heq
    obtain ⟨parts, fieldSchema, hparts, rfl⟩ := assetField_of_mem hproperty' hbuild hmem
    exact ⟨parts, fieldSchema, rfl, Or.inr ⟨assets, hentries, asset', hasset', hparts⟩⟩

theorem AssetField.catalogParts {asset : Fields N} {parts : List String} {fieldSchema : Json N}
    (h : AssetField py schema asset parts fieldSchema) : CatalogParts schema parts fieldSchema := by
  cases h with
  | plain hfield hkind => exact CatalogParts.plain hfield hkind
  | nested hfield hkind hsub => exact CatalogParts.nested hfield hkind hsub
  | item hfield hkind hsub => exact CatalogParts.item hfield hkind hsub

/-- Without dots in the keys, the parts of a path of the catalog are what it was joined from. -/
theorem catalogParts_of_mem (hschema : SchemaLawful py schema)
    (hdots : DotFree py schema rawConfig) {fields : List (ConfigField N)} {field : ConfigField N}
    (h : buildFieldCatalog py schema rawConfig = some fields) (hfield : field ∈ fields) :
    ∃ fieldSchema, CatalogParts schema (pathParts field.path) fieldSchema ∧
      ((pathParts field.path).tail ≠ [] → AssetsListed rawConfig) ∧
      field = buildConfigField py rawConfig field.path fieldSchema := by
  obtain ⟨parts, fieldSchema, rfl, hparts⟩ := mem_buildFieldCatalog h hfield
  -- splitting at the dots undoes the joining, part by part of each kind of path
  have hjoined : pathParts (".".intercalate parts) = parts := by
    rcases hparts with ⟨htail, hparts⟩ | ⟨assets, hassets, asset, hasset, hparts⟩
    · have hnames := hschema.name_dotFree hparts
      cases hparts with
      | top hname hne =>
        apply pathParts_intercalate (by simp)
        simpa using hnames.1 _ rfl
      | _ => cases htail
    · have hnames := hschema.name_dotFree hparts.catalogParts
      have hsymbol := hdots.symbol assets hassets asset hasset
      have hassetsName : '.' ∉ "assets".toList := by decide
      cases hparts with
      | plain hname hkind =>
        apply pathParts_intercalate (by simp)
        simpa [hassetsName, hsymbol] using hnames.1 _ rfl
      | nested hname hkind hsub =>
        apply pathParts_intercalate (by simp)
        simpa [hassetsName, hsymbol] using And.intro (hnames.2 _ rfl) (hnames.1 _ rfl)
      | item hname hkind hsub hentry =>
        have hkey := hdots.key assets hassets asset hasset _ hentry
        apply pathParts_intercalate (by simp)
        simpa [hassetsName, hsymbol, hkey] using And.intro (hnames.2 _ rfl) (hnames.1 _ rfl)
  refine ⟨fieldSchema, ?_, ?_, rfl⟩
  · show CatalogParts schema (pathParts (".".intercalate parts)) fieldSchema
    rw [hjoined]
    rcases hparts with ⟨-, hparts⟩ | ⟨assets, hassets, asset, hasset, hparts⟩
    · exact hparts
    · exact hparts.catalogParts
  · show (pathParts (".".intercalate parts)).tail ≠ [] → AssetsListed rawConfig
    rw [hjoined]
    intro htail
    rcases hparts with ⟨hnil, -⟩ | ⟨assets, hassets, asset, hasset, -⟩
    · exact absurd hnil htail
    · exact assetsListed_of_mem hassets hasset

end Catalog

end CryptoTrading.Agent.Configuration
