import Mathlib.Data.String.Basic
import CryptoTrading.Lib.ThreeWay

/-!
# Semantic merging of trading configurations

Embeds `src/vcs/application/semantic_merge.py` over the dumps of `TradingConfig`
(`src/configuration/trading_config.py`, `api/interfaces/asset.py`).

A dumped configuration has top-level settings and a list of assets.  An asset is an object
whose fields hold plain values, the strategies, or one of the objects `consensus` and
`guard_config`, which may be null.  A plain value is of an arbitrary type `V` with decidable
equality: the merge only compares values, and `none` is null.  Objects are records, since
Python compares dictionaries regardless of the order of their keys and the merge iterates
over sorted keys.

Two functions of Python's strings are parameters: `str` of a field value and `upper`.
A strategy of a validated configuration always has a name.
-/

namespace CryptoTrading.Vcs

open CryptoTrading.Lib

/-! ## §1 Dumped configurations -/

structure Strategy (V : Type) where
  name : String
  settings : Record String (Option V)
  deriving DecidableEq

inductive FieldValue (V : Type) where
  | leaf (value : Option V)
  | dict (d : Record String (Option V))
  | strategies (ss : List (Strategy V))
  deriving DecidableEq

namespace FieldValue

variable {V : Type}

def null : FieldValue V := .leaf none

/-- `isinstance(value, dict)`. -/
def isDict : FieldValue V → Bool
  | .dict _ => true
  | _ => false

/-- `value or {}` for a field that is null or an object. -/
def orEmptyDict : FieldValue V → Record String (Option V)
  | .dict d => d
  | _ => Record.empty

@[simp] theorem orEmptyDict_null : (null : FieldValue V).orEmptyDict = Record.empty := rfl

/-- `value or []` for a field that is null or a list of strategies. -/
def orEmptyList : FieldValue V → List (Strategy V)
  | .strategies ss => ss
  | _ => []

end FieldValue

/-- An asset as it is dumped. -/
abbrev AssetDump (V : Type) := Record String (FieldValue V)

/-- `asset.get(field)`: a missing field reads as null. -/
def AssetDump.field {V : Type} (asset : AssetDump V) (f : String) : FieldValue V :=
  Record.look FieldValue.null asset f

structure Config (V : Type) where
  settings : Record String (Option V)
  assets : List (AssetDump V)
  deriving DecidableEq

/-! ## §2 Conflicts -/

/-- Where a conflict is; the source has the rendered text. -/
inductive ConflictPath where
  | top (key : String)
  | asset (assetKey : String)
  | field (assetKey field : String)
  | subKey (assetKey field key : String)
  | strategy (assetKey name : String)
  deriving DecidableEq

def ConflictPath.render : ConflictPath → String
  | .top key => key
  | .asset assetKey => "assets." ++ assetKey
  | .field assetKey f => "assets." ++ assetKey ++ "." ++ f
  | .subKey assetKey f key => "assets." ++ assetKey ++ "." ++ f ++ "." ++ key
  | .strategy assetKey name => "assets." ++ assetKey ++ ".strategies." ++ name

inductive ConflictValue (V : Type) where
  | field (value : FieldValue V)
  | strategy (s : Option (Strategy V))
  | text (s : String)
  deriving DecidableEq

structure FieldConflict (V : Type) where
  path : ConflictPath
  baseValue : ConflictValue V
  oursValue : ConflictValue V
  theirsValue : ConflictValue V
  description : String
  deriving DecidableEq

/-! ## §3 The merge engine -/

namespace SemanticMergeEngine

variable {V : Type} [DecidableEq V]

/-- The conflict of a plain value. -/
def leafConflict (path : ConflictPath) (description : String) (base ours theirs : Option V) :
    FieldConflict V :=
  ⟨path, .field (.leaf base), .field (.leaf ours), .field (.leaf theirs), description⟩

/-- `SemanticMergeEngine._merge_subdict` with the path of a field as its first argument. -/
def mergeSubdict (assetKey field : String) (base ours theirs : Record String (Option V)) :
    Record String (Option V) × List (FieldConflict V) :=
  (mergeRecords none base ours theirs,
    (recordConflicts none base ours theirs).map fun k =>
      let path := ConflictPath.subKey assetKey field k
      leafConflict path ("Conflict on " ++ path.render) (base.look none k) (ours.look none k)
        (theirs.look none k))

/-- Strategies under their names. -/
def strategyMap (ss : List (Strategy V)) : Dict String (Strategy V) :=
  Dict.ofList (ss.map fun s => (s.name, s))

def strategyConflict (assetKey name : String) (base ours theirs : Option (Strategy V)) :
    FieldConflict V :=
  ⟨.strategy assetKey name, .strategy base, .strategy ours, .strategy theirs,
    "Conflicting strategy definition '" ++ name ++ "' on asset '" ++ assetKey ++ "'"⟩

/-- `SemanticMergeEngine._merge_strategies`. -/
def mergeStrategies (assetKey : String) (base ours theirs : List (Strategy V)) :
    List (Strategy V) × List (FieldConflict V) :=
  -- equal lists are taken over as they are, order included
  if ours = theirs then (ours, [])
  else if base = ours then (theirs, [])
  else if base = theirs then (ours, [])
  else
    let baseMap := strategyMap base
    let oursMap := strategyMap ours
    let theirsMap := strategyMap theirs
    (mergeKeyed baseMap oursMap theirsMap,
      (keyedConflicts baseMap oursMap theirsMap).map fun name =>
        strategyConflict assetKey name (baseMap.get? name) (oursMap.get? name)
          (theirsMap.get? name))

/-- The loop body of `_merge_single_asset` for one field. -/
def mergeField (assetKey field : String) (base ours theirs : FieldValue V) :
    FieldValue V × List (FieldConflict V) :=
  if field = "strategies" then
    -- null strategies are merged as an empty list
    let (merged, conflicts) :=
      mergeStrategies assetKey base.orEmptyList ours.orEmptyList theirs.orEmptyList
    (.strategies merged, conflicts)
  else if (field = "consensus" ∨ field = "guard_config") ∧
      (ours.isDict || theirs.isDict || base.isDict) then
    -- an object on any side makes null an empty object
    let (merged, conflicts) :=
      mergeSubdict assetKey field base.orEmptyDict ours.orEmptyDict theirs.orEmptyDict
    (.dict merged, conflicts)
  else
    match threeWay base ours theirs with
    | some merged => (merged, [])
    | none =>
      (ours, [⟨.field assetKey field, .field base, .field ours, .field theirs,
        "Conflict on asset '" ++ assetKey ++ "' property '" ++ field ++ "'"⟩])

/-- `SemanticMergeEngine._merge_single_asset`. -/
def mergeSingleAsset (assetKey : String) (base ours theirs : AssetDump V) :
    AssetDump V × List (FieldConflict V) :=
  let mergeAt := fun f => mergeField assetKey f (base.field f) (ours.field f) (theirs.field f)
  (Record.tabulate (allKeys base ours theirs) fun f => (mergeAt f).1,
    (sortedKeys (allKeys base ours theirs)).flatMap fun f => (mergeAt f).2)

/-- The conflict of an asset that one side changed and the other deleted. -/
def modifyDeleteConflict (assetKey oursValue theirsValue description : String) : FieldConflict V :=
  ⟨.asset assetKey, .text "Present", .text oursValue, .text theirsValue, description⟩

/-- The loop body of `_merge_assets` for one key. -/
def mergeAssetAt (assetKey : String) (base ours theirs : Option (AssetDump V)) :
    List (AssetDump V) × List (FieldConflict V) :=
  match base, ours, theirs with
  | none, some ours, some theirs =>
    -- both sides added the asset
    let (merged, conflicts) := mergeSingleAsset assetKey Record.empty ours theirs
    ([merged], conflicts)
  | none, some ours, none => ([ours], [])
  | none, none, some theirs => ([theirs], [])
  | some base, some ours, some theirs =>
    let (merged, conflicts) := mergeSingleAsset assetKey base ours theirs
    ([merged], conflicts)
  | some base, some ours, none =>
    -- theirs deleted the asset
    if ours = base then ([], [])
    else ([ours], [modifyDeleteConflict assetKey "Modified" "Deleted"
      ("Asset '" ++ assetKey ++ "' modified on main but deleted on backtest branch")])
  | some base, none, some theirs =>
    -- ours deleted the asset
    if theirs = base then ([], [])
    else ([theirs], [modifyDeleteConflict assetKey "Deleted" "Modified"
      ("Asset '" ++ assetKey ++ "' deleted on main but modified on backtest branch")])
  | _, none, none => ([], [])

section Keys

variable (str : FieldValue V → String) (upper : String → String)

/-- `str(asset.get(field, ""))`. -/
def textOf (asset : AssetDump V) (f : String) : String :=
  match asset.get? f with
  | some v => str v
  | none => ""

/-- `SemanticMergeEngine._asset_key`. -/
def assetKey (asset : AssetDump V) : String :=
  let base := upper (textOf str asset "base_ticker_symbol")
  let quote := upper (textOf str asset "quote_ticker_symbol")
  -- the name stands in when a symbol is missing
  if base ≠ "" ∧ quote ≠ "" then base ++ "_" ++ quote else textOf str asset "name"

/-- Assets under their keys; of assets with one key the last is kept. -/
def assetMap (assets : List (AssetDump V)) : Dict String (AssetDump V) :=
  Dict.ofList (assets.map fun a => (assetKey str upper a, a))

/-- `SemanticMergeEngine._merge_assets`. -/
def mergeAssets (base ours theirs : List (AssetDump V)) :
    List (AssetDump V) × List (FieldConflict V) :=
  let baseMap := assetMap str upper base
  let oursMap := assetMap str upper ours
  let theirsMap := assetMap str upper theirs
  let mergeAt := fun key =>
    mergeAssetAt key (baseMap.get? key) (oursMap.get? key) (theirsMap.get? key)
  let keys := namesInOrder baseMap oursMap theirsMap
  (keys.flatMap fun key => (mergeAt key).1, keys.flatMap fun key => (mergeAt key).2)

/-- `SemanticMergeEngine.merge`. -/
def merge (base ours theirs : Config V) : Config V × List (FieldConflict V) :=
  let (assets, assetConflicts) := mergeAssets str upper base.assets ours.assets theirs.assets
  -- the conflicts of the settings come before those of the assets
  (⟨mergeRecords none base.settings ours.settings theirs.settings, assets⟩,
    ((recordConflicts none base.settings ours.settings theirs.settings).map fun key =>
      leafConflict (.top key) ("Conflicting values for top-level '" ++ key ++ "'")
        (base.settings.look none key) (ours.settings.look none key)
        (theirs.settings.look none key)) ++ assetConflicts)

end Keys

end SemanticMergeEngine

end CryptoTrading.Vcs
