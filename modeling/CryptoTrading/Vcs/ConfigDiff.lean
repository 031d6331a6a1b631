import CryptoTrading.Agent.ConfigurationService
import CryptoTrading.Lib.KeyedComparison
import CryptoTrading.Lib.Record
import CryptoTrading.Vcs.JsonText

/-!
# Differences of configurations

Embeds `VCSService.compute_config_diff` in `src/vcs/application/service.py` over the dumps of
`TradingConfig`.

Python compares dictionaries without the order of their keys, so each dictionary is held in the
order of its keys and two values are equal when they are the same.  A missing key reads as null
(`dict.get`).  `str` of a value that is no string is a parameter, as is `str.upper`; the symbols
and names of a validated configuration are strings.
-/

namespace CryptoTrading.Vcs.ConfigDiff

open CryptoTrading.Lib
open CryptoTrading.Agent.Configuration (Json Fields ConfigChange)
open CryptoTrading.Vcs.Hashing (KeysInOrder json_induction)

variable {N : Type}

/-! ## §1 Values -/

section Equality

variable [DecidableEq N]

mutual

/-- `==` of two values. -/
def pyEq : Json N → Json N → Bool
  | .null, .null => true
  | .bool a, .bool b => a = b
  | .number a, .number b => a = b
  | .string a, .string b => a = b
  | .list as, .list bs => pyEqEntries as bs
  | .object as, .object bs => pyEqFields as bs
  | _, _ => false

def pyEqEntries : List (Json N) → List (Json N) → Bool
  | [], [] => true
  | a :: as, b :: bs => pyEq a b && pyEqEntries as bs
  | _, _ => false

def pyEqFields : Fields N → Fields N → Bool
  | [], [] => true
  | (k, a) :: as, (l, b) :: bs => k = l && pyEq a b && pyEqFields as bs
  | _, _ => false

end

theorem pyEqEntries_iff {as : List (Json N)} (h : ∀ a ∈ as, ∀ b, pyEq a b = true ↔ a = b)
    (bs : List (Json N)) : pyEqEntries as bs = true ↔ as = bs := by
  induction as generalizing bs with
  | nil => cases bs <;> simp [pyEqEntries]
  | cons a as ih =>
    cases bs with
    | nil => simp [pyEqEntries]
    | cons b bs =>
      obtain ⟨ha, has⟩ := List.forall_mem_cons.mp h
      simp [pyEqEntries, ha b, ih has bs]

theorem pyEqFields_iff {as : Fields N} (h : ∀ f ∈ as, ∀ b, pyEq f.2 b = true ↔ f.2 = b)
    (bs : Fields N) : pyEqFields as bs = true ↔ as = bs := by
  induction as generalizing bs with
  | nil => cases bs <;> simp [pyEqFields]
  | cons f as ih =>
    cases bs with
    | nil => simp [pyEqFields]
    | cons g bs =>
      obtain ⟨hf, has⟩ := List.forall_mem_cons.mp h
      simp [pyEqFields, hf g.2, ih has bs, Prod.ext_iff]

theorem pyEq_iff (a b : Json N) : pyEq a b = true ↔ a = b := by
  induction a using json_induction generalizing b with
  | hnull => cases b <;> simp [pyEq]
  | hbool a => cases b <;> simp [pyEq]
  | hnumber a => cases b <;> simp [pyEq]
  | hstring a => cases b <;> simp [pyEq]
  | hlist as ih => cases b <;> simp [pyEq, pyEqEntries_iff ih]
  | hobject as ih => cases b <;> simp [pyEq, pyEqFields_iff ih]

instance : DecidableEq (Json N) := fun a b => decidable_of_iff _ (pyEq_iff a b)

end Equality

/-- `d.get(key)`. -/
def look (d : Fields N) (key : String) : Json N := (Dict.findIn key d).getD .null

def isDict : Json N → Bool
  | .object _ => true
  | _ => false

/-- The keys of two dictionaries, `sorted(set(a) | set(b))`. -/
def allKeys (a b : Fields N) : List String := sortedKeys (a.map Prod.fst ++ b.map Prod.fst)

theorem sizeOf_findIn_lt {d : Fields N} {key : String} {value : Json N}
    (h : Dict.findIn key d = some value) : sizeOf value < sizeOf d := by
  induction d with
  | nil => simp [Dict.findIn] at h
  | cons f rest ih =>
    obtain ⟨k, v⟩ := f
    simp only [Dict.findIn] at h
    simp only [List.cons.sizeOf_spec, Prod.mk.sizeOf_spec]
    split at h
    · rw [Option.some.inj h]
      omega
    · have := ih h
      omega

/-- What is read from a dictionary is smaller than the dictionary, also where a key is
    missing. -/
theorem sizeOf_look_lt (d : Fields N) (key : String) :
    sizeOf (look d key) < sizeOf (Json.object d) := by
  have hobject : sizeOf (Json.object d) = 1 + sizeOf d := by simp
  unfold look
  cases hfind : Dict.findIn key d with
  | some value =>
    have hlt := sizeOf_findIn_lt hfind
    simp only [Option.getD_some]
    omega
  | none =>
    have hpos : 0 < sizeOf d := by cases d <;> simp
    have hnull : sizeOf (Json.null : Json N) = 1 := by simp
    simp only [Option.getD_none]
    omega

/-! ## §2 Assets and strategies -/

def asDict : Json N → Option (Fields N)
  | .object fields => some fields
  | _ => none

/-- The entries of a list, none when there is null instead. -/
def entriesOf : Json N → List (Json N)
  | .list entries => entries
  | _ => []

variable (str : Json N → String) (upper : String → String)

/-- `str(value)`. -/
def strOf : Json N → String
  | .string s => s
  | value => str value

/-- `str(d.get(key, default))`. -/
def strGet (d : Fields N) (key default : String) : String :=
  ((Dict.findIn key d).map (strOf str)).getD default

/-- `asset_key`. -/
def assetKey (asset : Fields N) : String :=
  let base := upper (strGet str asset "base_ticker_symbol" "")
  let quote := upper (strGet str asset "quote_ticker_symbol" "")
  let name := strGet str asset "name" ""
  if base ≠ "" ∧ quote ≠ "" then base ++ "_" ++ quote else name

def assetsOf (config : Fields N) : List (Fields N) :=
  (entriesOf (look config "assets")).filterMap asDict

/-- `map_a` and `map_b`: of several assets with one key, the last. -/
def assetMap (config : Fields N) : Dict String (Fields N) :=
  Dict.ofList ((assetsOf config).map fun asset => (assetKey str upper asset, asset))

/-- `strats_a` and `strats_b`; a strategy without a name goes by its position. -/
def strategyMap (strategies : Json N) : Dict String (Fields N) :=
  Dict.ofList ((entriesOf strategies).zipIdx.filterMap fun entry =>
    (asDict entry.1).map fun s => (strGet str s "name" (toString entry.2), s))

/-! ## §3 Changes -/

/-- The path of an entry of a dictionary. -/
def childPath (path subk : String) : String := if path = "" then subk else path ++ "." ++ subk

variable [DecidableEq N]

/-- `diff_nested`.  A dictionary is also compared with null, entry by entry. -/
def diffNested (path : String) (a b : Json N) : List (ConfigChange N) :=
  match a, b with
  | .object fa, .object fb =>
    (allKeys fa fb).flatMap fun subk =>
      diffNested (childPath path subk) (look fa subk) (look fb subk)
  | .object fa, .null =>
    (sortedKeys (fa.map Prod.fst)).flatMap fun subk =>
      diffNested (childPath path subk) (look fa subk) .null
  | .null, .object fb =>
    (sortedKeys (fb.map Prod.fst)).flatMap fun subk =>
      diffNested (childPath path subk) .null (look fb subk)
  | a, b => if a ≠ b then [⟨path, a, b, ""⟩] else []
termination_by sizeOf a + sizeOf b
decreasing_by
  · have ha := sizeOf_look_lt fa subk
    have hb := sizeOf_look_lt fb subk
    omega
  · have ha := sizeOf_look_lt fa subk
    omega
  · have hb := sizeOf_look_lt fb subk
    omega

/-- The changes of one field, which the top level, an asset and a strategy have in common. -/
def fieldChanges (path : String) (va vb : Json N) : List (ConfigChange N) :=
  if va ≠ vb then
    if isDict va || isDict vb then diffNested path va vb else [⟨path, va, vb, ""⟩]
  else []

/-- What is compared under the keys of two mappings. -/
def mapChanges (path : String → String) (removed added : String)
    (inner : String → Fields N → Fields N → List (ConfigChange N))
    (mapA mapB : Dict String (Fields N)) : List (ConfigChange N) :=
  (fromKeys (mapA.keys ++ mapB.keys)).flatMap fun key =>
    match mapA.get? key, mapB.get? key with
    | some x, none => [⟨path key, .object x, .null, removed⟩]
    | none, some y => [⟨path key, .null, .object y, added⟩]
    | some x, some y => inner key x y
    | none, none => []

/-- The changes of a strategy that is in both lists. -/
def strategyChanges (path : String) (sa sb : Fields N) : List (ConfigChange N) :=
  (allKeys sa sb).flatMap fun skey =>
    fieldChanges (path ++ "." ++ skey) (look sa skey) (look sb skey)

/-- The changes of one field of an asset, which the strategies have their own comparison for. -/
def assetFieldChanges (sym field : String) (fa fb : Json N) : List (ConfigChange N) :=
  if fa = fb then []
  else if field = "strategies" then
    let path := fun sname => "assets." ++ sym ++ ".strategies." ++ sname
    mapChanges path "Strategy removed" "Strategy added"
      (fun sname sa sb => strategyChanges (path sname) sa sb) (strategyMap str fa)
      (strategyMap str fb)
  else fieldChanges ("assets." ++ sym ++ "." ++ field) fa fb

/-- The changes of an asset that is in both configurations. -/
def assetChanges (sym : String) (aa ab : Fields N) : List (ConfigChange N) :=
  (allKeys aa ab).flatMap fun field =>
    assetFieldChanges str sym field (look aa field) (look ab field)

/-- `VCSService.compute_config_diff`. -/
def computeConfigDiff (configA configB : Fields N) : List (ConfigChange N) :=
  ((allKeys configA configB).filter fun key => key ≠ "assets").flatMap (fun key =>
    fieldChanges key (look configA key) (look configB key)) ++
  mapChanges (fun sym => "assets." ++ sym) "Asset removed" "Asset added"
    (assetChanges str) (assetMap str upper configA) (assetMap str upper configB)

end CryptoTrading.Vcs.ConfigDiff
