import CryptoTrading.Vcs.ConfigDiff

/-!
# What a difference of configurations tells

A change is only written where two leaves differ, so `diff_nested` does not tell null from a
dictionary of nulls: what it compares are the values without their nulls
(`diffNested_eq_nil_iff`).  Assets are compared under their keys, and of several assets with one
key only the last is (`assetMap`).

So a difference is empty exactly when the two configurations are the same once they are
`reduced` in these two ways.  Exchanging the configurations exchanges the old and the new values.
-/

namespace CryptoTrading.Vcs.ConfigDiff

open CryptoTrading.Lib
open CryptoTrading.Agent.Configuration (Json Fields ConfigChange)
open CryptoTrading.Vcs.Hashing (KeysInOrder)

variable {N : Type}

/-! ## §1 Values without nulls -/

/-- A dictionary, or null when it has no entry. -/
def dictOrNull : Fields N → Json N
  | [] => .null
  | fields => .object fields

/-- An entry in front of the others, unless its value is null. -/
def consUnlessNull (key : String) : Json N → Fields N → Fields N
  | .null, rest => rest
  | value, rest => (key, value) :: rest

mutual

/-- A value without the entries that are null, or hold nothing but nulls. -/
def withoutNulls : Json N → Json N
  | .null => .null
  | .bool b => .bool b
  | .number n => .number n
  | .string s => .string s
  | .list entries => .list entries
  | .object fields => dictOrNull (withoutNullFields fields)

def withoutNullFields : Fields N → Fields N
  | [] => []
  | (key, value) :: rest => consUnlessNull key (withoutNulls value) (withoutNullFields rest)

end

theorem dictOrNull_injective : Function.Injective (dictOrNull (N := N)) := by
  intro a b h
  cases a <;> cases b <;> simp_all [dictOrNull]

theorem consUnlessNull_of_ne {key : String} {value : Json N} (h : value ≠ .null)
    (rest : Fields N) : consUnlessNull key value rest = (key, value) :: rest := by
  cases value <;> first | exact absurd rfl h | rfl

theorem consUnlessNull_sublist (key : String) (value : Json N) (rest : Fields N) :
    (consUnlessNull key value rest).Sublist ((key, value) :: rest) := by
  by_cases h : value = .null
  · rw [h]
    exact List.sublist_cons_self ..
  · rw [consUnlessNull_of_ne h]

theorem keys_withoutNullFields (fields : Fields N) :
    ((withoutNullFields fields).map Prod.fst).Sublist (fields.map Prod.fst) := by
  induction fields with
  | nil => exact List.Sublist.slnil
  | cons f rest ih =>
    obtain ⟨key, value⟩ := f
    have hcons := (consUnlessNull_sublist key (withoutNulls value) (withoutNullFields rest)).map
      Prod.fst
    exact hcons.trans (ih.cons_cons key)

theorem ne_null_of_mem_withoutNullFields {fields : Fields N} :
    ∀ f ∈ withoutNullFields fields, f.2 ≠ .null := by
  induction fields with
  | nil => simp [withoutNullFields]
  | cons f rest ih =>
    obtain ⟨key, value⟩ := f
    rw [withoutNullFields]
    by_cases h : withoutNulls value = .null
    · rw [h]
      exact ih
    · rw [consUnlessNull_of_ne h]
      exact List.forall_mem_cons.mpr ⟨h, ih⟩

theorem look_cons (key : String) (value : Json N) (rest : Fields N) (k : String) :
    look ((key, value) :: rest) k = if key = k then value else look rest k := by
  by_cases h : key = k <;> simp [look, Dict.findIn, h]

theorem look_of_notMem {fields : Fields N} {k : String} (h : k ∉ fields.map Prod.fst) :
    look fields k = .null := by
  rw [look, (Dict.findIn_eq_none_iff k fields).mpr h, Option.getD_none]

/-- Reading an entry and leaving the nulls out is the same in either order. -/
theorem look_withoutNullFields {fields : Fields N} (hnodup : (fields.map Prod.fst).Nodup)
    (k : String) : look (withoutNullFields fields) k = withoutNulls (look fields k) := by
  induction fields with
  | nil => rfl
  | cons f rest ih =>
    obtain ⟨key, value⟩ := f
    obtain ⟨hkey, hrest⟩ := List.nodup_cons.mp hnodup
    rw [withoutNullFields, look_cons]
    by_cases hk : key = k
    · subst hk
      rw [if_pos rfl]
      by_cases h : withoutNulls value = .null
      · rw [h]
        -- the entry is left out, and there is no other under its key
        exact look_of_notMem fun hmem => hkey ((keys_withoutNullFields rest).subset hmem)
      · rw [consUnlessNull_of_ne h, look_cons, if_pos rfl]
    · rw [if_neg hk, ← ih hrest]
      by_cases h : withoutNulls value = .null
      · rw [h]
        rfl
      · rw [consUnlessNull_of_ne h, look_cons, if_neg hk]

/-- Dictionaries without nulls are the same when the same is read from them. -/
theorem eq_of_look {a b : Fields N} (ha : (a.map Prod.fst).Pairwise (· < ·))
    (hb : (b.map Prod.fst).Pairwise (· < ·)) (hna : ∀ f ∈ a, f.2 ≠ .null)
    (hnb : ∀ f ∈ b, f.2 ≠ .null) (h : ∀ k, look a k = look b k) : a = b := by
  have hfind {d : Fields N} (hd : (d.map Prod.fst).Pairwise (· < ·))
      (hnd : ∀ f ∈ d, f.2 ≠ .null) (k : String) (value : Json N) :
      Dict.findIn k d = some value ↔ look d k = value ∧ value ≠ .null := by
    unfold look
    cases hget : Dict.findIn k d with
    | none =>
      simp only [Option.getD_none, reduceCtorEq, false_iff]
      rintro ⟨rfl, hne⟩
      exact hne rfl
    | some w =>
      have hmem := (Dict.findIn_eq_some_iff k w (hd.imp ne_of_lt)).mp hget
      simp only [Option.some.injEq, Option.getD_some]
      constructor
      · rintro rfl
        exact ⟨rfl, hnd _ hmem⟩
      · exact fun hw => hw.1
  have hrecords : (⟨a, ha⟩ : Record String (Json N)) = ⟨b, hb⟩ := by
    apply Record.ext_get?
    intro k
    ext value
    exact (hfind ha hna k value).trans (by rw [h k]; exact (hfind hb hnb k value).symm)
  exact congrArg Record.entries hrecords

/-! ## §2 Nested values -/

theorem sorted_of_keysInOrder {fields : Fields N} (h : KeysInOrder (.object fields)) :
    (fields.map Prod.fst).Pairwise (· < ·) := by
  cases h with
  | object hkeys _ => exact List.pairwise_map.mpr hkeys

theorem nodup_of_keysInOrder {fields : Fields N} (h : KeysInOrder (.object fields)) :
    (fields.map Prod.fst).Nodup :=
  (sorted_of_keysInOrder h).imp ne_of_lt

/-- What is read from a dictionary has its keys in order as well. -/
theorem keysInOrder_look {fields : Fields N} (h : KeysInOrder (.object fields)) (k : String) :
    KeysInOrder (look fields k) := by
  unfold look
  cases hget : Dict.findIn k fields with
  | none => exact .null
  | some value =>
    have hmem := (Dict.findIn_eq_some_iff k value (nodup_of_keysInOrder h)).mp hget
    cases h with
    | object _ hvalues => exact hvalues _ hmem

theorem keysInOrder_empty_dict : KeysInOrder (.object ([] : Fields N)) := by
  refine .object .nil ?_
  simp

/-- Under a key that neither dictionary has, both read as null. -/
theorem forall_allKeys_iff (P : String → Json N → Json N → Prop) (hnull : ∀ k, P k .null .null)
    (a b : Fields N) :
    (∀ k ∈ allKeys a b, P k (look a k) (look b k)) ↔ ∀ k, P k (look a k) (look b k) := by
  constructor
  · intro h k
    by_cases hmem : k ∈ allKeys a b
    · exact h k hmem
    · rw [allKeys, mem_sortedKeys, List.mem_append, not_or] at hmem
      rw [look_of_notMem hmem.1, look_of_notMem hmem.2]
      exact hnull k
  · exact fun h k _ => h k

/-- Two dictionaries are the same without their nulls when the values under each key are. -/
theorem withoutNulls_object_eq_iff {a b : Fields N} (ha : KeysInOrder (.object a))
    (hb : KeysInOrder (.object b)) :
    withoutNulls (.object a) = withoutNulls (.object b) ↔
      ∀ k ∈ allKeys a b, withoutNulls (look a k) = withoutNulls (look b k) := by
  have hna := nodup_of_keysInOrder ha
  have hnb := nodup_of_keysInOrder hb
  rw [forall_allKeys_iff (fun _ x y => withoutNulls x = withoutNulls y) fun _ => rfl,
    withoutNulls, withoutNulls, dictOrNull_injective.eq_iff]
  constructor
  · intro h k
    rw [← look_withoutNullFields hna, ← look_withoutNullFields hnb, h]
  · intro h
    apply eq_of_look ((sorted_of_keysInOrder ha).sublist (keys_withoutNullFields a))
      ((sorted_of_keysInOrder hb).sublist (keys_withoutNullFields b))
      ne_null_of_mem_withoutNullFields ne_null_of_mem_withoutNullFields
    intro k
    rw [look_withoutNullFields hna, look_withoutNullFields hnb, h k]

theorem withoutNulls_null_eq : withoutNulls (.null : Json N) = withoutNulls (.object []) := rfl

theorem allKeys_nil_right (a : Fields N) : allKeys a [] = sortedKeys (a.map Prod.fst) := by
  simp [allKeys]

theorem allKeys_nil_left (b : Fields N) : allKeys [] b = sortedKeys (b.map Prod.fst) := by
  simp [allKeys]

theorem withoutNulls_of_not_dict {a : Json N} (h : isDict a = false) : withoutNulls a = a := by
  cases a <;> first | rfl | exact absurd h (by simp [isDict])

theorem withoutNulls_of_dict {a : Json N} (h : isDict a = true) :
    withoutNulls a = .null ∨ isDict (withoutNulls a) = true := by
  cases a with
  | object fields =>
    rw [withoutNulls]
    cases withoutNullFields fields with
    | nil => exact Or.inl rfl
    | cons f rest => exact Or.inr rfl
  | _ => exact absurd h (by simp [isDict])

/-- A dictionary is not taken for a value that is neither one nor null. -/
theorem withoutNulls_ne_of_dict {a b : Json N} (ha : isDict a = true) (hb : isDict b = false)
    (hnull : b ≠ .null) : withoutNulls a ≠ withoutNulls b := by
  rw [withoutNulls_of_not_dict hb]
  intro h
  rcases withoutNulls_of_dict ha with hn | hd
  · exact hnull (h.symm.trans hn)
  · rw [h, hb] at hd
    cases hd

theorem ne_of_isDict {a b : Json N} (ha : isDict a = true) (hb : isDict b = false) : a ≠ b := by
  rintro rfl
  rw [ha] at hb
  cases hb

/-- Two values that `diff_nested` compares as they are. -/
structure Leaves (a b : Json N) : Prop where
  both : isDict a = true → isDict b = false
  left : isDict a = true → b ≠ .null
  right : isDict b = true → a ≠ .null

theorem Leaves.symm {a b : Json N} (h : Leaves a b) : Leaves b a where
  both hb := by
    cases ha : isDict a with
    | false => rfl
    | true => exact absurd hb (by simp [h.both ha])
  left := h.right
  right := h.left

theorem leaves_of_not_dict {a b : Json N} (ha : isDict a = false) (hb : isDict b = false) :
    Leaves a b := by
  constructor <;> intro h <;> simp_all

/-- The values of two leaves are the same without their nulls when they are the same. -/
theorem Leaves.withoutNulls_eq_iff {a b : Json N} (h : Leaves a b) :
    withoutNulls a = withoutNulls b ↔ a = b := by
  cases ha : isDict a with
  | true =>
    have hb := h.both ha
    exact iff_of_false (withoutNulls_ne_of_dict ha hb (h.left ha)) (ne_of_isDict ha hb)
  | false =>
    cases hb : isDict b with
    | true =>
      exact iff_of_false (withoutNulls_ne_of_dict hb ha (h.right hb)).symm
        (ne_of_isDict hb ha).symm
    | false => rw [withoutNulls_of_not_dict ha, withoutNulls_of_not_dict hb]

theorem leaves_iff {a b : Json N} :
    Leaves a b ↔ (∀ fa fb, a = .object fa → b = .object fb → False) ∧
      (∀ fa, a = .object fa → b = .null → False) ∧ ∀ fb, a = .null → b = .object fb → False := by
  constructor
  · rintro ⟨hboth, hleft, hright⟩
    refine ⟨?_, ?_, ?_⟩
    · rintro fa fb rfl rfl
      exact absurd (hboth rfl) (by simp [isDict])
    · rintro fa rfl rfl
      exact hleft rfl rfl
    · rintro fb rfl rfl
      exact hright rfl rfl
  · rintro ⟨hboth, hleft, hright⟩
    constructor
    · cases a <;> cases b <;> simp_all [isDict]
    · cases a <;> simp_all [isDict]
    · cases b <;> simp_all [isDict]

section Changes

variable [DecidableEq N]

theorem diffNested_of_leaves {path : String} {a b : Json N} (h : Leaves a b) :
    diffNested path a b = if a ≠ b then [⟨path, a, b, ""⟩] else [] := by
  obtain ⟨hboth, hleft, hright⟩ := leaves_iff.mp h
  exact diffNested.eq_4 path a b hboth hleft hright

/-- The cases of `diff_nested`: entry by entry, or as two leaves. -/
theorem diffNested_induction {motive : String → Json N → Json N → Prop}
    (dicts : ∀ path fa fb, (∀ subk, motive (childPath path subk) (look fa subk) (look fb subk)) →
      motive path (.object fa) (.object fb))
    (dictNull : ∀ path fa, (∀ subk, motive (childPath path subk) (look fa subk) .null) →
      motive path (.object fa) .null)
    (nullDict : ∀ path fb, (∀ subk, motive (childPath path subk) .null (look fb subk)) →
      motive path .null (.object fb))
    (leaves : ∀ path a b, Leaves a b → motive path a b) (path : String) (a b : Json N) :
    motive path a b :=
  diffNested.induct motive dicts dictNull nullDict
    (fun path a b h₁ h₂ h₃ _ => leaves path a b (leaves_iff.mpr ⟨h₁, h₂, h₃⟩))
    (fun path a b h₁ h₂ h₃ _ => leaves path a b (leaves_iff.mpr ⟨h₁, h₂, h₃⟩)) path a b

/-- `diff_nested` finds a change exactly when two values differ without their nulls. -/
theorem diffNested_eq_nil_iff {path : String} {a b : Json N} (ha : KeysInOrder a)
    (hb : KeysInOrder b) : diffNested path a b = [] ↔ withoutNulls a = withoutNulls b := by
  induction path, a, b using diffNested_induction with
  | dicts path fa fb ih =>
    rw [diffNested, List.flatMap_eq_nil_iff, withoutNulls_object_eq_iff ha hb]
    exact forall₂_congr fun k _ => ih k (keysInOrder_look ha k) (keysInOrder_look hb k)
  | dictNull path fa ih =>
    -- null is compared as a dictionary without entries
    rw [diffNested, List.flatMap_eq_nil_iff, withoutNulls_null_eq,
      withoutNulls_object_eq_iff ha keysInOrder_empty_dict, allKeys_nil_right]
    exact forall₂_congr fun k _ => ih k (keysInOrder_look ha k) .null
  | nullDict path fb ih =>
    rw [diffNested, List.flatMap_eq_nil_iff, withoutNulls_null_eq,
      withoutNulls_object_eq_iff keysInOrder_empty_dict hb, allKeys_nil_left]
    exact forall₂_congr fun k _ => ih k .null (keysInOrder_look hb k)
  | leaves path a b h =>
    rw [diffNested_of_leaves h, h.withoutNulls_eq_iff]
    by_cases heq : a = b <;> simp [heq]

/-- The same for one field. -/
theorem fieldChanges_eq_nil_iff {path : String} {va vb : Json N} (ha : KeysInOrder va)
    (hb : KeysInOrder vb) : fieldChanges path va vb = [] ↔ withoutNulls va = withoutNulls vb := by
  unfold fieldChanges
  by_cases heq : va = vb
  · simp [heq]
  · by_cases hdict : isDict va = true ∨ isDict vb = true
    · rw [if_pos heq, if_pos (by simpa using hdict), diffNested_eq_nil_iff ha hb]
    · simp only [not_or, Bool.not_eq_true] at hdict
      rw [if_pos heq, if_neg (by simp [hdict]),
        (leaves_of_not_dict hdict.1 hdict.2).withoutNulls_eq_iff]
      simp [heq]

end Changes

/-! ## §3 Dumped configurations -/

/-- A text under a key. -/
def HasText (fields : Fields N) (key : String) : Prop :=
  ∃ text, look fields key = .string text

/-- The strategies of an asset. -/
def strategiesOf (asset : Fields N) : List (Fields N) :=
  (entriesOf (look asset "strategies")).filterMap asDict

/-- What the validation of an asset leaves: its symbols and its name are texts, and every strategy
    has a name of its own (`_validate_unique_asset_strategies`). -/
structure IsAsset (asset : Fields N) : Prop where
  base : HasText asset "base_ticker_symbol"
  quote : HasText asset "quote_ticker_symbol"
  name : HasText asset "name"
  named : ∀ s ∈ strategiesOf asset, HasText s "name"
  unique : ((strategiesOf asset).map fun s => look s "name").Nodup

/-- The canonical dump of a `TradingConfig`. -/
structure ConfigDump (N : Type) where
  fields : Fields N
  keysInOrder : KeysInOrder (.object fields)
  has_assets : ∃ assets : List (Fields N), look fields "assets" = .list (assets.map .object)
  isAsset : ∀ asset ∈ assetsOf fields, IsAsset asset

/-- Two dictionaries have the same fields, apart from one. -/
def SameFields (except : String) (a b : Fields N) : Prop :=
  ∀ key, key ≠ except → look a key = look b key

/-- Two assets have the same fields and the same strategies. -/
def SameAsset (x y : Fields N) : Prop :=
  SameFields "strategies" x y ∧ ∀ s, s ∈ strategiesOf x ↔ s ∈ strategiesOf y

/-- Two configurations have the same fields, the same set of assets and the same strategies per
    asset. -/
def SameConfig (a b : Fields N) : Prop :=
  SameFields "assets" a b ∧ Covers SameAsset (assetsOf a) (assetsOf b)

theorem sameConfig_refl (a : Fields N) : SameConfig a a := by
  have hasset (x : Fields N) : SameAsset x x := ⟨fun _ _ => rfl, fun _ => Iff.rfl⟩
  exact ⟨fun _ _ => rfl, fun x hx => ⟨x, hx, hasset x⟩, fun y hy => ⟨y, hy, hasset y⟩⟩

/-! ## §4 Reduced configurations -/

variable (str : Json N → String) (upper : String → String)

/-- The strategies of a list without their nulls. -/
def reducedStrategies (strategies : Json N) : Json N :=
  .list (((entriesOf strategies).filterMap asDict).map fun s => .object (withoutNullFields s))

/-- An asset without its nulls. -/
def reducedAsset (asset : Fields N) : Fields N :=
  asset.map fun f =>
    (f.1, if f.1 = "strategies" then reducedStrategies f.2 else withoutNulls f.2)

/-- A configuration without its nulls, and with the last asset for each key only. -/
def reduced (config : Fields N) : Fields N :=
  config.map fun f =>
    (f.1, if f.1 = "assets" then
        .list ((assetMap str upper config).values.map fun asset => .object (reducedAsset asset))
      else withoutNulls f.2)

/-- Rewriting the values of a dictionary. -/
theorem findIn_map_entries (g : String → Json N → Json N) (k : String) (fields : Fields N) :
    Dict.findIn k (fields.map fun f => (f.1, g f.1 f.2)) = (Dict.findIn k fields).map (g k) := by
  induction fields with
  | nil => rfl
  | cons f rest ih =>
    obtain ⟨key, value⟩ := f
    rw [List.map_cons, Dict.findIn, Dict.findIn]
    by_cases hk : key = k
    · rw [if_pos hk, if_pos hk, hk, Option.map_some]
    · rw [if_neg hk, if_neg hk, ih]

/-- A missing key reads as null before and after, where null stays null. -/
theorem look_map {g : String → Json N → Json N} {k : String} (hnull : g k .null = .null)
    (fields : Fields N) : look (fields.map fun f => (f.1, g f.1 f.2)) k = g k (look fields k) := by
  rw [look, look, findIn_map_entries]
  cases Dict.findIn k fields with
  | none => exact hnull.symm
  | some value => rfl

/-- What is not null is there. -/
theorem look_map_of_ne_null (g : String → Json N → Json N) {k : String} {fields : Fields N}
    (h : look fields k ≠ .null) :
    look (fields.map fun f => (f.1, g f.1 f.2)) k = g k (look fields k) := by
  rw [look] at h
  rw [look, look, findIn_map_entries]
  cases hget : Dict.findIn k fields with
  | none =>
    rw [hget] at h
    exact absurd rfl h
  | some value => rfl

theorem look_reducedAsset {k : String} (hk : k ≠ "strategies") (asset : Fields N) :
    look (reducedAsset asset) k = withoutNulls (look asset k) := by
  have h := look_map (g := fun key value =>
    if key = "strategies" then reducedStrategies value else withoutNulls value) (k := k)
    (by simp only [if_neg hk]; rfl) asset
  simpa only [reducedAsset, if_neg hk] using h

/-- The strategies of a reduced asset are its strategies without their nulls. -/
theorem strategiesOf_reducedAsset (asset : Fields N) :
    strategiesOf (reducedAsset asset) = (strategiesOf asset).map withoutNullFields := by
  have hfind := findIn_map_entries (fun key value =>
    if key = "strategies" then reducedStrategies value else withoutNulls value) "strategies" asset
  rw [strategiesOf, strategiesOf, look, look, reducedAsset, hfind]
  cases Dict.findIn "strategies" asset with
  | none => rfl
  | some strategies =>
    -- a list of dictionaries is filtered for dictionaries again
    rw [Option.map_some, if_pos rfl, Option.getD_some, Option.getD_some, reducedStrategies,
      entriesOf, List.filterMap_map]
    exact congrFun List.filterMap_eq_map _

theorem sameFields_reducedAsset {x y : Fields N} :
    SameFields "strategies" (reducedAsset x) (reducedAsset y) ↔
      ∀ k, k ≠ "strategies" → withoutNulls (look x k) = withoutNulls (look y k) := by
  apply forall₂_congr
  intro k hk
  rw [look_reducedAsset hk, look_reducedAsset hk]

theorem keysInOrder_mem {entries : List (Json N)} (h : KeysInOrder (.list entries))
    {fields : Fields N} (hmem : fields ∈ entries.filterMap asDict) :
    KeysInOrder (.object fields) := by
  obtain ⟨entry, hentry, hdict⟩ := List.mem_filterMap.mp hmem
  cases h with
  | list h =>
    have hkeys := h entry hentry
    cases entry <;> simp_all [asDict]

/-- The dictionaries in a list have their keys in order. -/
theorem keysInOrder_entriesOf {value : Json N} (h : KeysInOrder value) {fields : Fields N}
    (hmem : fields ∈ (entriesOf value).filterMap asDict) : KeysInOrder (.object fields) := by
  cases value with
  | list entries => exact keysInOrder_mem h hmem
  | _ => simp [entriesOf] at hmem

/-! ## §5 Strategies -/

/-- A text, or no letters for another value. -/
def textOf : Json N → String
  | .string s => s
  | _ => ""

/-- The name of a strategy. -/
def nameOf (s : Fields N) : String := textOf (look s "name")

theorem HasText.look_eq {fields : Fields N} {key : String} (h : HasText fields key) :
    look fields key = .string (textOf (look fields key)) := by
  obtain ⟨text, htext⟩ := h
  rw [htext]
  rfl

theorem HasText.strGet_eq {fields : Fields N} {key : String} (h : HasText fields key)
    (default : String) : strGet str fields key default = textOf (look fields key) := by
  obtain ⟨text, htext⟩ := h
  rw [htext]
  unfold look at htext
  unfold strGet
  cases hget : Dict.findIn key fields with
  | none => simp [hget] at htext
  | some value =>
    rw [hget, Option.getD_some] at htext
    rw [htext]
    rfl

/-- Leaving the nulls out does not change a text. -/
theorem HasText.eq_of_withoutNulls {x y : Fields N} {key : String} (hx : HasText x key)
    (hy : HasText y key) (h : withoutNulls (look x key) = withoutNulls (look y key)) :
    look x key = look y key := by
  obtain ⟨s, hs⟩ := hx
  obtain ⟨t, ht⟩ := hy
  rw [hs, ht] at h ⊢
  exact h

/-- The mapping of the strategies goes by their names, when they have some. -/
theorem strategyMap_eq {strategies : Json N}
    (hnamed : ∀ s ∈ (entriesOf strategies).filterMap asDict, HasText s "name") :
    strategyMap str strategies =
      Dict.ofList (((entriesOf strategies).filterMap asDict).map fun s => (nameOf s, s)) := by
  unfold strategyMap
  congr 1
  -- the position is only read where there is no name
  have hpositions (entries : List (Json N)) (start : ℕ)
      (h : ∀ s ∈ entries.filterMap asDict, HasText s "name") :
      ((entries.zipIdx start).filterMap fun entry => (asDict entry.1).map fun s =>
        (strGet str s "name" (toString entry.2), s)) =
        (entries.filterMap asDict).map fun s => (nameOf s, s) := by
    induction entries generalizing start with
    | nil => rfl
    | cons entry entries ih =>
      rw [List.zipIdx_cons, List.filterMap_cons, List.filterMap_cons]
      cases hdict : asDict entry with
      | none =>
        rw [List.filterMap_cons, hdict] at h
        exact ih _ h
      | some s =>
        rw [List.filterMap_cons, hdict] at h
        obtain ⟨hs, hrest⟩ := List.forall_mem_cons.mp h
        simp only [Option.map_some, hs.strGet_eq, ih _ hrest, List.map_cons]
        rfl
  exact hpositions _ 0 hnamed

theorem nodup_names {asset : Fields N} (h : IsAsset asset) :
    ((strategiesOf asset).map nameOf).Nodup := by
  have hlook : (strategiesOf asset).map (fun s => look s "name") =
      ((strategiesOf asset).map nameOf).map Json.string := by
    rw [List.map_map]
    exact List.map_congr_left fun s hs => (h.named s hs).look_eq
  have hunique := h.unique
  rw [hlook] at hunique
  exact hunique.of_map _

/-- The strategies of an asset are found under their names. -/
theorem entries_strategyMap {asset : Fields N} (h : IsAsset asset) :
    (strategyMap str (look asset "strategies")).entries =
      (strategiesOf asset).map fun s => (nameOf s, s) := by
  rw [strategyMap_eq str h.named]
  apply Dict.entries_ofList
  rw [List.map_map]
  exact nodup_names h

theorem values_strategyMap {asset : Fields N} (h : IsAsset asset) :
    (strategyMap str (look asset "strategies")).values = strategiesOf asset := by
  rw [Dict.values, entries_strategyMap str h, List.map_map]
  exact List.map_id' _

theorem nameOf_of_strategyMap {asset : Fields N} (h : IsAsset asset) {k : String}
    {s : Fields N} (hget : (strategyMap str (look asset "strategies")).get? k = some s) :
    s ∈ strategiesOf asset ∧ nameOf s = k := by
  have hmem := (Dict.get?_eq_some_iff _ k s).mp hget
  rw [entries_strategyMap str h] at hmem
  obtain ⟨t, ht, heq⟩ := List.mem_map.mp hmem
  obtain ⟨rfl, rfl⟩ := Prod.mk.inj heq
  exact ⟨ht, rfl⟩

/-- Nothing is written when the values under each key of either mapping are related, where the
    inner comparison finds that. -/
theorem mapChanges_eq_nil_iff {path : String → String} {removed added : String}
    {inner : String → Fields N → Fields N → List (ConfigChange N)}
    {mapA mapB : Dict String (Fields N)} {R : Fields N → Fields N → Prop}
    (hinner : ∀ k x y, mapA.get? k = some x → mapB.get? k = some y → (inner k x y = [] ↔ R x y)) :
    mapChanges path removed added inner mapA mapB = [] ↔ Matched R mapA mapB := by
  rw [mapChanges, List.flatMap_eq_nil_iff]
  apply forall_congr'
  intro k
  rw [mem_fromKeys, List.mem_append]
  -- a key of one mapping alone is always written
  cases hA : mapA.get? k with
  | none =>
    cases hB : mapB.get? k with
    | none =>
      simp only [implies_true, true_iff]
      exact .none
    | some y =>
      have hmem : k ∈ mapB.keys := by
        by_contra hnot
        rw [(mapB.get?_eq_none_iff k).mpr hnot] at hB
        cases hB
      simp [hmem]
  | some x =>
    have hmem : k ∈ mapA.keys := by
      by_contra hnot
      rw [(mapA.get?_eq_none_iff k).mpr hnot] at hA
      cases hA
    cases hB : mapB.get? k with
    | none => simp [hmem]
    | some y => simp [hmem, hinner k x y hA hB]

theorem keysInOrder_strategy {asset s : Fields N} (h : KeysInOrder (.object asset))
    (hs : s ∈ strategiesOf asset) : KeysInOrder (.object s) :=
  keysInOrder_entriesOf (keysInOrder_look h "strategies") hs

/-- Strategies that are the same without their nulls have the same name. -/
theorem nameOf_eq_of_withoutNullFields {s t : Fields N} (hs : KeysInOrder (.object s))
    (ht : KeysInOrder (.object t)) (hns : HasText s "name") (hnt : HasText t "name")
    (h : withoutNullFields s = withoutNullFields t) : nameOf s = nameOf t := by
  have hlook := congrArg (fun fields => look fields "name") h
  simp only [look_withoutNullFields (nodup_of_keysInOrder hs),
    look_withoutNullFields (nodup_of_keysInOrder ht)] at hlook
  rw [nameOf, nameOf, hns.eq_of_withoutNulls hnt hlook]

section Changes

variable [DecidableEq N]

/-- A strategy has no changes when it is the same without its nulls. -/
theorem strategyChanges_eq_nil_iff {path : String} {s t : Fields N}
    (hs : KeysInOrder (.object s)) (ht : KeysInOrder (.object t)) :
    strategyChanges path s t = [] ↔ withoutNullFields s = withoutNullFields t := by
  rw [← dictOrNull_injective.eq_iff, ← withoutNulls, ← withoutNulls,
    withoutNulls_object_eq_iff hs ht, strategyChanges, List.flatMap_eq_nil_iff]
  exact forall₂_congr fun k _ =>
    fieldChanges_eq_nil_iff (keysInOrder_look hs k) (keysInOrder_look ht k)

/-- The strategies of an asset have no changes when their sets are the same without nulls. -/
theorem strategiesChanges_eq_nil_iff (path : String → String) {x y : Fields N} (hx : IsAsset x)
    (hy : IsAsset y) (hkx : KeysInOrder (.object x)) (hky : KeysInOrder (.object y)) :
    mapChanges path "Strategy removed" "Strategy added"
        (fun sname sa sb => strategyChanges (path sname) sa sb)
        (strategyMap str (look x "strategies")) (strategyMap str (look y "strategies")) = [] ↔
      ∀ s, s ∈ strategiesOf (reducedAsset x) ↔ s ∈ strategiesOf (reducedAsset y) := by
  rw [mapChanges_eq_nil_iff (R := fun s t => withoutNullFields s = withoutNullFields t),
    matched_iff_covers, covers_image_iff, values_strategyMap str hx, values_strategyMap str hy,
    strategiesOf_reducedAsset, strategiesOf_reducedAsset]
  · intro k s l t hs ht h
    obtain ⟨hsx, hk⟩ := nameOf_of_strategyMap str hx hs
    obtain ⟨hty, hl⟩ := nameOf_of_strategyMap str hy ht
    rw [← hk, ← hl]
    exact nameOf_eq_of_withoutNullFields (keysInOrder_strategy hkx hsx)
      (keysInOrder_strategy hky hty) (hx.named s hsx) (hy.named t hty) h
  · intro k s t hs ht
    exact strategyChanges_eq_nil_iff
      (keysInOrder_strategy hkx (nameOf_of_strategyMap str hx hs).1)
      (keysInOrder_strategy hky (nameOf_of_strategyMap str hy ht).1)

/-! ## §6 Assets -/

theorem assetFieldChanges_eq_nil_iff_of_ne {sym field : String} (hfield : field ≠ "strategies")
    {fa fb : Json N} (ha : KeysInOrder fa) (hb : KeysInOrder fb) :
    assetFieldChanges str sym field fa fb = [] ↔ withoutNulls fa = withoutNulls fb := by
  unfold assetFieldChanges
  by_cases heq : fa = fb
  · simp [heq]
  · rw [if_neg heq, if_neg hfield, fieldChanges_eq_nil_iff ha hb]

theorem assetFieldChanges_strategies_eq_nil_iff {sym : String} {x y : Fields N} (hx : IsAsset x)
    (hy : IsAsset y) (hkx : KeysInOrder (.object x)) (hky : KeysInOrder (.object y)) :
    assetFieldChanges str sym "strategies" (look x "strategies") (look y "strategies") = [] ↔
      ∀ s, s ∈ strategiesOf (reducedAsset x) ↔ s ∈ strategiesOf (reducedAsset y) := by
  unfold assetFieldChanges
  by_cases heq : look x "strategies" = look y "strategies"
  · have hsame : strategiesOf x = strategiesOf y := by rw [strategiesOf, strategiesOf, heq]
    simp [heq, strategiesOf_reducedAsset, hsame]
  · rw [if_neg heq, if_pos rfl, strategiesChanges_eq_nil_iff str _ hx hy hkx hky]

/-- An asset has no changes when it is the same without its nulls. -/
theorem assetChanges_eq_nil_iff {sym : String} {x y : Fields N} (hx : IsAsset x)
    (hy : IsAsset y) (hkx : KeysInOrder (.object x)) (hky : KeysInOrder (.object y)) :
    assetChanges str sym x y = [] ↔ SameAsset (reducedAsset x) (reducedAsset y) := by
  have hnull (k : String) : assetFieldChanges str sym k (.null : Json N) .null = [] := by
    simp [assetFieldChanges]
  rw [assetChanges, List.flatMap_eq_nil_iff,
    forall_allKeys_iff (fun k fa fb => assetFieldChanges str sym k fa fb = []) hnull, SameAsset,
    sameFields_reducedAsset, ← assetFieldChanges_strategies_eq_nil_iff str hx hy hkx hky]
  constructor
  · intro h
    refine ⟨fun k hk => ?_, h "strategies"⟩
    exact (assetFieldChanges_eq_nil_iff_of_ne str hk (keysInOrder_look hkx k)
      (keysInOrder_look hky k)).mp (h k)
  · rintro ⟨hfields, hstrategies⟩ k
    by_cases hk : k = "strategies"
    · rw [hk]
      exact hstrategies
    · exact (assetFieldChanges_eq_nil_iff_of_ne str hk (keysInOrder_look hkx k)
        (keysInOrder_look hky k)).mpr (hfields k hk)

end Changes

/-- Assets that are the same without their nulls have the same key. -/
theorem assetKey_eq_of_sameAsset {x y : Fields N} (hx : IsAsset x) (hy : IsAsset y)
    (h : SameAsset (reducedAsset x) (reducedAsset y)) :
    assetKey str upper x = assetKey str upper y := by
  have hfields := sameFields_reducedAsset.mp h.1
  have hbase := hx.base.eq_of_withoutNulls hy.base (hfields _ (by decide))
  have hquote := hx.quote.eq_of_withoutNulls hy.quote (hfields _ (by decide))
  have hname := hx.name.eq_of_withoutNulls hy.name (hfields _ (by decide))
  simp only [assetKey, hx.base.strGet_eq, hx.quote.strGet_eq, hx.name.strGet_eq,
    hy.base.strGet_eq, hy.quote.strGet_eq, hy.name.strGet_eq, hbase, hquote, hname]

theorem assetKey_of_assetMap {config : Fields N} {k : String} {asset : Fields N}
    (h : (assetMap str upper config).get? k = some asset) :
    asset ∈ assetsOf config ∧ assetKey str upper asset = k := by
  obtain ⟨x, hx, heq⟩ := List.mem_map.mp (Dict.mem_of_get?_ofList h)
  obtain ⟨rfl, rfl⟩ := Prod.mk.inj heq
  exact ⟨hx, rfl⟩

theorem ConfigDump.keysInOrder_asset (c : ConfigDump N) {asset : Fields N}
    (h : asset ∈ assetsOf c.fields) : KeysInOrder (.object asset) :=
  keysInOrder_entriesOf (keysInOrder_look c.keysInOrder "assets") h

/-! ## §7 Configurations -/

theorem look_reduced {k : String} (hk : k ≠ "assets") (config : Fields N) :
    look (reduced str upper config) k = withoutNulls (look config k) := by
  have h := look_map (g := fun key value =>
    if key = "assets" then
      .list ((assetMap str upper config).values.map fun asset => .object (reducedAsset asset))
    else withoutNulls value) (k := k) (by simp only [if_neg hk]; rfl) config
  simpa only [reduced, if_neg hk] using h

/-- The assets of a reduced configuration: the last for each key, without their nulls. -/
theorem assetsOf_reduced (c : ConfigDump N) :
    assetsOf (reduced str upper c.fields) =
      (assetMap str upper c.fields).values.map reducedAsset := by
  have hassets : look c.fields "assets" ≠ .null := by
    obtain ⟨assets, h⟩ := c.has_assets
    rw [h]
    simp
  have h := look_map_of_ne_null (fun key value =>
    if key = "assets" then
      .list ((assetMap str upper c.fields).values.map fun asset => .object (reducedAsset asset))
    else withoutNulls value) hassets
  rw [if_pos rfl] at h
  rw [assetsOf, reduced, h, entriesOf, List.filterMap_map]
  exact congrFun List.filterMap_eq_map _

variable [DecidableEq N]

/-- The assets have no changes when they are the same once they are reduced. -/
theorem assetMapChanges_eq_nil_iff (a b : ConfigDump N) :
    mapChanges (fun sym => "assets." ++ sym) "Asset removed" "Asset added" (assetChanges str)
        (assetMap str upper a.fields) (assetMap str upper b.fields) = [] ↔
      Covers SameAsset (assetsOf (reduced str upper a.fields))
        (assetsOf (reduced str upper b.fields)) := by
  rw [mapChanges_eq_nil_iff (R := fun x y => SameAsset (reducedAsset x) (reducedAsset y)),
    matched_iff_covers, assetsOf_reduced, assetsOf_reduced, covers_map_iff]
  · intro k x l y hx hy h
    obtain ⟨hxa, hk⟩ := assetKey_of_assetMap str upper hx
    obtain ⟨hyb, hl⟩ := assetKey_of_assetMap str upper hy
    rw [← hk, ← hl]
    exact assetKey_eq_of_sameAsset str upper (a.isAsset x hxa) (b.isAsset y hyb) h
  · intro k x y hx hy
    obtain ⟨hxa, -⟩ := assetKey_of_assetMap str upper hx
    obtain ⟨hyb, -⟩ := assetKey_of_assetMap str upper hy
    exact assetChanges_eq_nil_iff str (a.isAsset x hxa) (b.isAsset y hyb)
      (a.keysInOrder_asset hxa) (b.keysInOrder_asset hyb)

/-- The settings have no changes when they are the same without their nulls. -/
theorem settingsChanges_eq_nil_iff (a b : ConfigDump N) :
    ((allKeys a.fields b.fields).filter fun key => key ≠ "assets").flatMap (fun key =>
        fieldChanges key (look a.fields key) (look b.fields key)) = [] ↔
      SameFields "assets" (reduced str upper a.fields) (reduced str upper b.fields) := by
  have hfield (k : String) :
      fieldChanges k (look a.fields k) (look b.fields k) = [] ↔
        withoutNulls (look a.fields k) = withoutNulls (look b.fields k) :=
    fieldChanges_eq_nil_iff (keysInOrder_look a.keysInOrder k)
      (keysInOrder_look b.keysInOrder k)
  rw [List.flatMap_eq_nil_iff]
  calc (∀ k ∈ (allKeys a.fields b.fields).filter fun key => key ≠ "assets",
        fieldChanges k (look a.fields k) (look b.fields k) = [])
      ↔ ∀ k ∈ allKeys a.fields b.fields, k ≠ "assets" →
          withoutNulls (look a.fields k) = withoutNulls (look b.fields k) := by
        simp only [List.mem_filter, decide_eq_true_eq, and_imp, hfield]
    _ ↔ ∀ k, k ≠ "assets" →
          withoutNulls (look a.fields k) = withoutNulls (look b.fields k) :=
        forall_allKeys_iff (fun k fa fb => k ≠ "assets" → withoutNulls fa = withoutNulls fb)
          (fun _ _ => rfl) _ _
    _ ↔ SameFields "assets" (reduced str upper a.fields) (reduced str upper b.fields) := by
        apply forall₂_congr
        intro k hk
        rw [look_reduced str upper hk, look_reduced str upper hk]

/-- **What an empty difference says**: the configurations are the same once they are reduced. -/
theorem computeConfigDiff_nil_iff_sameConfig_reduced (a b : ConfigDump N) :
    computeConfigDiff str upper a.fields b.fields = [] ↔
      SameConfig (reduced str upper a.fields) (reduced str upper b.fields) := by
  rw [computeConfigDiff, List.append_eq_nil_iff, settingsChanges_eq_nil_iff str upper,
    assetMapChanges_eq_nil_iff, SameConfig]

/-! ## §8 Assets with keys of their own -/

/-- No two assets have one key. -/
def DistinctKeys (config : Fields N) : Prop :=
  ((assetsOf config).map (assetKey str upper)).Nodup

omit [DecidableEq N] in
theorem values_assetMap {config : Fields N} (h : DistinctKeys str upper config) :
    (assetMap str upper config).values = assetsOf config := by
  rw [Dict.values, assetMap, Dict.entries_ofList, List.map_map]
  · exact List.map_id' _
  · rw [List.map_map]
    exact h

omit [DecidableEq N] in
theorem SameAsset.reduced {x y : Fields N} (h : SameAsset x y) :
    SameAsset (reducedAsset x) (reducedAsset y) := by
  refine ⟨sameFields_reducedAsset.mpr fun k hk => by rw [h.1 k hk], fun s => ?_⟩
  rw [strategiesOf_reducedAsset, strategiesOf_reducedAsset, List.mem_map, List.mem_map]
  exact exists_congr fun t => and_congr_left' (h.2 t)

/-- Where no asset hides another, configurations that are the same have no changes; so all that
    the differences of such configurations leave out are nulls. -/
theorem computeConfigDiff_nil_of_sameConfig {a b : ConfigDump N}
    (ha : DistinctKeys str upper a.fields) (hb : DistinctKeys str upper b.fields)
    (h : SameConfig a.fields b.fields) : computeConfigDiff str upper a.fields b.fields = [] := by
  rw [computeConfigDiff_nil_iff_sameConfig_reduced]
  obtain ⟨hfields, hleft, hright⟩ := h
  constructor
  · intro k hk
    rw [look_reduced str upper hk, look_reduced str upper hk, hfields k hk]
  · rw [assetsOf_reduced, assetsOf_reduced, covers_map_iff, values_assetMap str upper ha,
      values_assetMap str upper hb]
    constructor
    · intro x hx
      obtain ⟨y, hy, hxy⟩ := hleft x hx
      exact ⟨y, hy, hxy.reduced⟩
    · intro y hy
      obtain ⟨x, hx, hxy⟩ := hright y hy
      exact ⟨x, hx, hxy.reduced⟩

end CryptoTrading.Vcs.ConfigDiff
