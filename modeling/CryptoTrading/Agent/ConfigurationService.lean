import CryptoTrading.Agent.FieldCatalog

/-!
# Validating and applying a proposal

Embeds `validate_proposal` and `apply_proposal` of
`src/agent/configuration/configuration_service.py`.

The model of a configuration (`TradingConfig`) is a parameter: what it validates, and what it dumps
again.  It is built of assets, and the alias that an asset has for one of its fields is rewritten
in the dictionary that is validated (`src/api/interfaces/asset.py`).  A validated proposal has its
values replaced by those that the model dumps, in the changes themselves, so that a result comes
with the proposal that is left.
-/

namespace CryptoTrading.Agent.Configuration

open CryptoTrading.Lib

variable {N M : Type}

/-! ## §1 Proposals -/

/-- `ConfigChange`. -/
structure ConfigChange (N : Type) where
  path : String
  oldValue : Json N
  newValue : Json N
  reason : String

/-- `ConfigurationProposal`. -/
structure ConfigurationProposal (N : Type) where
  summary : String
  changes : List (ConfigChange N)
  risks : List String
  expectedEffect : String
  baseCommitHash : Option String
  createdAt : Option ℚ
  ttlSeconds : Option ℤ

/-- `ValidationResult`. -/
structure ValidationResult where
  valid : Bool
  errors : List String
  warnings : List String

/-- `ValidationResult.failed`. -/
def ValidationResult.failed (errors : List String) : ValidationResult := ⟨false, errors, []⟩

/-! ## §2 The model of a configuration -/

/-- A step to where an error is. -/
inductive LocPart where
  | index (i : ℕ)
  | name (s : String)
  deriving DecidableEq

def LocPart.text : LocPart → String
  | .index i => toString i
  | .name s => s

structure PydanticError (N : Type) where
  loc : List LocPart
  type : String
  msg : String
  input : Json N

/-- A configuration that does not validate has an error. -/
structure ValidationError (N : Type) where
  errors : List (PydanticError N)
  nonempty : errors ≠ []

/-- What the model of a configuration makes of a document, and what it dumps. -/
structure TradingModel (N M : Type) where
  validate : Json N → Except (ValidationError N) M
  dump : M → Json N

/-- `_map_decimal_places_alias`. -/
def mapDecimalPlacesAlias (data : Fields N) : Fields N :=
  match Dict.findIn "decimal_places" data with
  | some value =>
    if (Dict.findIn "quote_decimals" data).isSome then data
    else data.filter (fun e => e.1 ≠ "decimal_places") ++ [("quote_decimals", value)]
  | none => data

def mapAssetAlias : Json N → Json N
  | .object asset => .object (mapDecimalPlacesAlias asset)
  | entry => entry

/-- What is left of a document that has been validated: the assets are rewritten in place. -/
def mapAliases : Json N → Json N
  | .object fields =>
    match Dict.findIn "assets" fields with
    | some (.list entries) =>
      .object (Dict.setIn "assets" (.list (entries.map mapAssetAlias)) fields)
    | _ => .object fields
  | config => config

/-- `TRADING_CONFIG_ADAPTER.validate_python`. -/
def TradingModel.validatePython (model : TradingModel N M) (config : Json N) :
    Except (ValidationError N) M × Json N :=
  (model.validate (mapAliases config), mapAliases config)

variable (py : Python N)

/-- `_normalize_change_values`, for one change. -/
def normalizeChangeValue (normalizedConfig : Json N) (change : ConfigChange N) : ConfigChange N :=
  match getValue py normalizedConfig change.path with
  | .null => change
  | normalizedValue => { change with newValue := normalizedValue }

/-! ## §3 Errors of the whole configuration -/

/-- The loop of `_loc_to_dot_path`. -/
def locParts : List LocPart → Json N → List String
  | [], _ => []
  | .index i :: rest, .list entries =>
    let listEntry := (entries[i]?).getD .null
    let key := match listEntry with
      | .object entry => entryKey py entry
      | _ => ""
    (if key = "" then toString i else key) :: locParts rest listEntry
  | part :: rest, .object fields =>
    part.text :: locParts rest ((Dict.findIn part.text fields).getD .null)
  | part :: rest, _ => part.text :: locParts rest .null

/-- `_loc_to_dot_path`. -/
def locToDotPath (errorLoc : List LocPart) (patchedConfig : Json N) : String :=
  ".".intercalate (locParts py errorLoc patchedConfig)

/-- `_find_change_for_error_path`. -/
def findChangeForErrorPath (errorDotPath : String) (appliedChanges : List (ConfigChange N)) :
    Option String :=
  (appliedChanges.find? fun change => errorDotPath = change.path ||
    errorDotPath.startsWith (change.path ++ ".") ||
    change.path.startsWith (errorDotPath ++ ".")).map ConfigChange.path

/-- `_preexisting_error_keys`. -/
def preexistingErrorKeys (model : TradingModel N M) (rawConfig : Json N) :
    List (List LocPart × String) :=
  match (model.validatePython rawConfig).1 with
  | .ok _ => []
  | .error e => e.errors.map fun error => (error.loc, error.type)

/-- `_reported_error_value`. -/
def reportedErrorValue (error : PydanticError N) (patchedConfig : Json N) (changePath : String) :
    Json N :=
  match error.input with
  | .object _ => getValue py patchedConfig changePath
  | .list _ => getValue py patchedConfig changePath
  | input => input

/-- What an error of the validation adds: the text of an error, or of a warning. -/
def describeError (preexisting : List (List LocPart × String)) (patchedConfig : Json N)
    (appliedChanges : List (ConfigChange N)) (error : PydanticError N) : String ⊕ String :=
  let path := locToDotPath py error.loc patchedConfig
  match findChangeForErrorPath path appliedChanges with
  | some changePath =>
    let value := py.repr (reportedErrorValue py error patchedConfig changePath)
    let hint := if path = changePath then "" else " (at " ++ path ++ ")"
    .inl ("Field '" ++ changePath ++ "' value " ++ value ++ " violates constraint: " ++ error.msg ++
      hint)
  | none =>
    if (error.loc, error.type) ∈ preexisting then
      .inr ("Field '" ++ path ++ "' was already invalid before this proposal (" ++ error.msg ++
        "); these changes leave it untouched.")
    else .inl ("Field '" ++ path ++ "': " ++ error.msg)

/-- `_collect_wholesale_validation_errors`: the model, if there is one, and the texts. -/
def collectWholesaleValidationErrors (model : TradingModel N M) (rawConfig patchedConfig : Json N)
    (appliedChanges : List (ConfigChange N)) : Option M × List String × List String :=
  match model.validatePython patchedConfig with
  | (.ok m, _) => (some m, [], [])
  | (.error e, patchedConfig) =>
    let texts := e.errors.map
      (describeError py (preexistingErrorKeys model rawConfig) patchedConfig appliedChanges)
    (none, texts.filterMap Sum.getLeft?, texts.filterMap Sum.getRight?)

/-! ## §4 Validating -/

/-- The loop of `_apply_changes_to_patch`.  A change is marked when it has been applied. -/
structure PatchState (N : Type) where
  patchedConfig : Json N
  changes : List (ConfigChange N × Bool)
  errors : List String
  warnings : List String

namespace PatchState

def fail (s : PatchState N) (change : ConfigChange N) (error : String) : PatchState N :=
  { s with changes := s.changes ++ [(change, false)], errors := s.errors ++ [error] }

/-- The warning about a value that is not the one the proposal starts from. -/
def rebased (s : PatchState N) (rawConfig : Json N) (change : ConfigChange N) : PatchState N :=
  let currentValue := getValue py rawConfig change.path
  if py.equal currentValue change.oldValue then s
  else { s with warnings := s.warnings ++
    ["Field '" ++ change.path ++ "' current value (" ++ py.repr currentValue ++
      ") differs from the proposed old_value (" ++ py.repr change.oldValue ++
      "); the patch has been rebased."] }

def applyChange (rawConfig : Json N) (catalogByPath : Dict String (ConfigField N))
    (s : PatchState N) (change : ConfigChange N) : PatchState N :=
  match catalogByPath.get? change.path with
  | none => s.fail change ("Unknown configuration path: " ++ change.path)
  | some field =>
    if field.isMutable = false then
      s.fail change ("Field '" ++ change.path ++ "' is locked and cannot be changed.")
    else
      let s := s.rebased py rawConfig change
      match setValue py s.patchedConfig change.path change.newValue with
      | none => s.fail change ("Failed to set value for '" ++ change.path ++ "'")
      | some patchedConfig =>
        { s with patchedConfig := patchedConfig, changes := s.changes ++ [(change, true)] }

/-- The changes that have been applied. -/
def applied (s : PatchState N) : List (ConfigChange N) :=
  (s.changes.filter fun e => e.2).map Prod.fst

/-- The changes after the applied ones have been normalized. -/
def normalized (s : PatchState N) (normalizedConfig : Json N) : List (ConfigChange N) :=
  s.changes.map fun e => if e.2 then normalizeChangeValue py normalizedConfig e.1 else e.1

end PatchState

/-- `{field.path: field for field in fields}`. -/
def catalogByPath (fields : List (ConfigField N)) : Dict String (ConfigField N) :=
  Dict.ofList (fields.map fun field => (field.path, field))

/-- `_apply_changes_to_patch`. -/
def applyChangesToPatch (rawConfig : Json N) (changes : List (ConfigChange N))
    (catalog : Dict String (ConfigField N)) : PatchState N :=
  run (PatchState.applyChange py rawConfig catalog) ⟨rawConfig, [], [], []⟩ changes

/-- The warning about changes that no model has normalized. -/
def notNormalized : String :=
  "Proposed values could not be type-normalized because the configuration has " ++
    "pre-existing validation errors; they will be written exactly as proposed."

variable (schema : Fields N) (model : TradingModel N M)

/-- `validate_proposal`, with the configuration as it was loaded and as it was loaded again for the
    catalog.  The result comes with the changes that are left; nothing where the catalog raises. -/
def validateProposal (rawConfig catalogConfig : Json N) (proposal : ConfigurationProposal N) :
    Option (ValidationResult × ConfigurationProposal N) :=
  if proposal.changes.isEmpty then
    some (ValidationResult.failed ["Proposal contains no changes."], proposal)
  else do
    let fields ← buildFieldCatalog py schema catalogConfig
    let s := applyChangesToPatch py rawConfig proposal.changes (catalogByPath fields)
    if s.applied.isEmpty then some (⟨s.errors.isEmpty, s.errors, s.warnings⟩, proposal)
    else
      match collectWholesaleValidationErrors py model rawConfig s.patchedConfig s.applied with
      | (some m, errors, warnings) =>
        some (⟨(s.errors ++ errors).isEmpty, s.errors ++ errors, s.warnings ++ warnings⟩,
          { proposal with changes := s.normalized py (model.dump m) })
      | (none, errors, warnings) =>
        let unnormalized := if (s.errors ++ errors).isEmpty then [notNormalized] else []
        some (⟨(s.errors ++ errors).isEmpty, s.errors ++ errors,
          s.warnings ++ warnings ++ unnormalized⟩, proposal)

/-! ## §5 Applying -/

/-- The writes of a list of changes. -/
def changeWrites (changes : List (ConfigChange N)) : List (String × Json N) :=
  changes.map fun change => (change.path, change.newValue)

/-- `set_value`, change by change. -/
def patch (config : Json N) (changes : List (ConfigChange N)) : Json N :=
  run (slots py).write config (changeWrites changes)

/-- What `apply_proposal` returns, and the proposal that is left. -/
structure Applied (N : Type) where
  config : Json N
  warnings : List String
  proposal : ConfigurationProposal N

/-- The warnings of `apply_proposal`. -/
def rebaseWarnings (rawConfig : Json N) (changes : List (ConfigChange N)) : List String :=
  (changes.filter fun change => !py.equal (getValue py rawConfig change.path) change.oldValue).map
    fun change => "Field '" ++ change.path ++ "' was rebased from " ++ py.repr change.oldValue ++
      " to its current value."

/-- `apply_proposal`. -/
def applyProposal (rawConfig : Json N) (proposal : ConfigurationProposal N) : Applied N :=
  let warnings := rebaseWarnings py rawConfig proposal.changes
  match model.validatePython (patch py rawConfig proposal.changes) with
  | (.error e, patchedConfig) =>
    ⟨patchedConfig, warnings ++ ["Applied configuration does not validate (" ++
      toString e.errors.length ++ " error(s)); call validate_proposal first."], proposal⟩
  | (.ok m, patchedConfig) =>
    let changes := proposal.changes.map (normalizeChangeValue py (model.dump m))
    ⟨patch py patchedConfig changes, warnings, { proposal with changes := changes }⟩

/-! ## §6 What a valid proposal has done -/

section Valid

variable {py} {schema} {model}

/-- A change without an error has been applied. -/
theorem PatchState.applyChange_of_noError {rawConfig : Json N}
    {catalog : Dict String (ConfigField N)} {s : PatchState N} {change : ConfigChange N}
    (h : (s.applyChange py rawConfig catalog change).errors = []) :
    s.errors = [] ∧ (∃ field, catalog.get? change.path = some field ∧ field.isMutable = true) ∧
      ∃ config, setValue py s.patchedConfig change.path change.newValue = some config ∧
        (s.applyChange py rawConfig catalog change).patchedConfig = config ∧
        (s.applyChange py rawConfig catalog change).changes = s.changes ++ [(change, true)] := by
  have hrebased : (s.rebased py rawConfig change).errors = s.errors ∧
      (s.rebased py rawConfig change).patchedConfig = s.patchedConfig ∧
      (s.rebased py rawConfig change).changes = s.changes := by
    unfold PatchState.rebased
    dsimp only
    split <;> exact ⟨rfl, rfl, rfl⟩
  obtain ⟨herrors, hconfig, hchanges⟩ := hrebased
  -- a field that is unknown, locked or missing leaves an error, so none of them happened
  unfold PatchState.applyChange at h ⊢
  cases hfield : catalog.get? change.path with
  | none =>
    rw [hfield] at h
    simp [PatchState.fail] at h
  | some field =>
    simp only [hfield] at h ⊢
    by_cases hlocked : field.isMutable = false
    · rw [if_pos hlocked] at h
      simp [PatchState.fail] at h
    · rw [if_neg hlocked] at h ⊢
      rw [hconfig] at h ⊢
      cases hset : setValue py s.patchedConfig change.path change.newValue with
      | none =>
        rw [hset] at h
        simp [PatchState.fail] at h
      | some config =>
        rw [hset] at h
        refine ⟨herrors.symm.trans h, ⟨field, rfl, ?_⟩, config, rfl, rfl, ?_⟩
        · simpa using hlocked
        · rw [hchanges]

/-- Changes without an error have all been applied, one after the other. -/
theorem run_applyChange_of_noError {rawConfig : Json N} {catalog : Dict String (ConfigField N)}
    {s : PatchState N} {changes : List (ConfigChange N)}
    (h : (run (PatchState.applyChange py rawConfig catalog) s changes).errors = []) :
    s.errors = [] ∧
      (∀ change ∈ changes, ∃ field, catalog.get? change.path = some field ∧
        field.isMutable = true) ∧
      Along (slots py).write (fun c e => canSet py c e.1 = true) s.patchedConfig
        (changeWrites changes) ∧
      (run (PatchState.applyChange py rawConfig catalog) s changes).patchedConfig =
        patch py s.patchedConfig changes ∧
      (run (PatchState.applyChange py rawConfig catalog) s changes).changes =
        s.changes ++ changes.map fun change => (change, true) := by
  -- the errors only grow, so the first change has left none either
  induction changes generalizing s with
  | nil => exact ⟨h, by simp, trivial, rfl, by simp⟩
  | cons change rest ih =>
    rw [run_cons] at h ⊢
    obtain ⟨herrors, hfields, halong, hconfig, hchanges⟩ := ih h
    obtain ⟨hstart, hfield, config, hset, hpatched, hmarked⟩ :=
      PatchState.applyChange_of_noError herrors
    have hwrite : (slots py).write s.patchedConfig (change.path, change.newValue) = config := by
      show (setValue py s.patchedConfig change.path change.newValue).getD _ = config
      rw [hset]
      rfl
    rw [hpatched] at halong hconfig
    refine ⟨hstart, ?_, ⟨?_, ?_⟩, ?_, ?_⟩
    · intro c hc
      rcases List.mem_cons.mp hc with rfl | hc
      · exact hfield
      · exact hfields c hc
    · show canSet py s.patchedConfig change.path = true
      rw [canSet, ← isSome_setAt]
      exact Option.isSome_iff_exists.mpr ⟨config, hset⟩
    · show Along _ _ ((slots py).write s.patchedConfig (change.path, change.newValue)) _
      rw [hwrite]
      exact halong
    · rw [hconfig, patch, patch, changeWrites, changeWrites, List.map_cons, run_cons, hwrite]
    · rw [hchanges, hmarked, List.append_assoc]
      rfl

/-- Without errors to begin with, a configuration that does not validate has an error. -/
theorem collectWholesaleValidationErrors_of_noError {rawConfig patchedConfig : Json N} {m₀ : M}
    (hraw : (model.validatePython rawConfig).1 = .ok m₀) {applied : List (ConfigChange N)}
    {found : Option M} {errors warnings : List String}
    (h : collectWholesaleValidationErrors py model rawConfig patchedConfig applied =
      (found, errors, warnings)) (herrors : errors = []) :
    ∃ m, found = some m ∧ (model.validatePython patchedConfig).1 = .ok m := by
  unfold collectWholesaleValidationErrors at h
  have hpre : preexistingErrorKeys model rawConfig = [] := by
    unfold preexistingErrorKeys
    rw [hraw]
  cases hvalid : model.validatePython patchedConfig with
  | mk outcome config =>
    cases outcome with
    | ok m =>
      rw [hvalid] at h
      exact ⟨m, (Prod.mk.inj h).1.symm, rfl⟩
    | error e =>
      rw [hvalid] at h
      simp only [hpre, Prod.mk.injEq] at h
      -- each error of the model gives the text of an error
      obtain ⟨error, hmem⟩ := List.exists_mem_of_ne_nil e.errors e.nonempty
      have hleft : ∃ text, describeError py [] config applied error = .inl text := by
        simp only [describeError]
        split
        · exact ⟨_, rfl⟩
        · rw [if_neg List.not_mem_nil]
          exact ⟨_, rfl⟩
      obtain ⟨text, htext⟩ := hleft
      have hin : text ∈ errors := by
        rw [← h.2.1, List.mem_filterMap]
        exact ⟨.inl text, List.mem_map.mpr ⟨error, hmem, htext⟩, rfl⟩
      rw [herrors] at hin
      cases hin

/-- What `validate_proposal` has done when it finds no errors in a proposal for a configuration that
    validates. -/
structure ProposalValid (py : Python N) (schema : Fields N) (model : TradingModel N M)
    (rawConfig catalogConfig : Json N) (proposal proposal' : ConfigurationProposal N)
    (fields : List (ConfigField N)) (m : M) : Prop where
  catalog : buildFieldCatalog py schema catalogConfig = some fields
  editable : ∀ change ∈ proposal.changes, ∃ field,
    (catalogByPath fields).get? change.path = some field ∧ field.isMutable = true
  written : Along (slots py).write (fun c e => canSet py c e.1 = true) rawConfig
    (changeWrites proposal.changes)
  validates : (model.validatePython (patch py rawConfig proposal.changes)).1 = .ok m
  left : proposal' =
    { proposal with changes := proposal.changes.map (normalizeChangeValue py (model.dump m)) }

/-- **A proposal that is valid** has had all its changes applied, and the outcome validates. -/
theorem proposalValid_of_valid {rawConfig catalogConfig : Json N} {m₀ : M}
    (hraw : (model.validatePython rawConfig).1 = .ok m₀)
    {proposal proposal' : ConfigurationProposal N} {result : ValidationResult}
    (h : validateProposal py schema model rawConfig catalogConfig proposal =
      some (result, proposal')) (hvalid : result.valid = true) :
    ∃ fields m,
      ProposalValid py schema model rawConfig catalogConfig proposal proposal' fields m := by
  unfold validateProposal at h
  split at h
  · obtain ⟨rfl, -⟩ := Prod.mk.inj (Option.some.inj h)
    cases hvalid
  · rename_i hchanges
    obtain ⟨fields, hfields, h⟩ := Option.bind_eq_some_iff.mp h
    dsimp only at h
    -- whatever the outcome, the changes were applied without an error
    have hspec : (applyChangesToPatch py rawConfig proposal.changes
        (catalogByPath fields)).errors = [] → _ := run_applyChange_of_noError
    split at h
    · rename_i happlied
      obtain ⟨rfl, -⟩ := Prod.mk.inj (Option.some.inj h)
      obtain ⟨-, -, -, -, hmarked⟩ := hspec (List.isEmpty_iff.mp hvalid)
      -- there are changes, and all of them have been applied
      simp only [PatchState.applied, applyChangesToPatch, hmarked] at happlied
      simp [List.filter_map, Function.comp_def] at happlied
      exact absurd (List.isEmpty_iff.mpr happlied) hchanges
    · split at h
      · rename_i m errors warnings hcollect
        obtain ⟨rfl, rfl⟩ := Prod.mk.inj (Option.some.inj h)
        obtain ⟨hpatch, herrors⟩ := List.append_eq_nil_iff.mp (List.isEmpty_iff.mp hvalid)
        obtain ⟨-, heditable, halong, hconfig, hmarked⟩ := hspec hpatch
        obtain ⟨m', hm', hvalidates⟩ :=
          collectWholesaleValidationErrors_of_noError hraw hcollect herrors
        obtain rfl := Option.some.inj hm'
        refine ⟨fields, m, hfields, heditable, halong, ?_, ?_⟩
        · rw [← hvalidates, applyChangesToPatch, hconfig]
        · simp only [PatchState.normalized, applyChangesToPatch, hmarked, List.nil_append,
            List.map_map]
          rfl
      · rename_i errors warnings hcollect
        obtain ⟨rfl, rfl⟩ := Prod.mk.inj (Option.some.inj h)
        obtain ⟨hpatch, herrors⟩ := List.append_eq_nil_iff.mp (List.isEmpty_iff.mp hvalid)
        obtain ⟨m', hm', -⟩ := collectWholesaleValidationErrors_of_noError hraw hcollect herrors
        cases hm'

end Valid

end CryptoTrading.Agent.Configuration
