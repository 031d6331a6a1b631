import CryptoTrading.Lib.Dict
import CryptoTrading.Lib.Slots

/-!
# Paths into a configuration

Embeds the path accessors of `ConfigurationSchema` in `src/agent/configuration/schema.py`.

A raw configuration is what a JSON document holds.  The parts of a path, which dots separate, lead
through dictionaries by their keys, and through lists by the key of an entry: the symbol of an
asset, or the name of anything else.  A value is only written where there is one.

What the accessors do to each other is stated once for all configurations (`lawful_slots`): a path
that leads into the fields that an entry is found by is not safe to write (`KeySafe`), and two
paths are apart when they part somewhere (`Apart`).
-/

namespace CryptoTrading.Agent.Configuration

open CryptoTrading.Lib

/-! ## §1 Values -/

inductive Json (N : Type) where
  | null
  | bool (b : Bool)
  | number (n : N)
  | string (s : String)
  | list (entries : List (Json N))
  | object (fields : List (String × Json N))

/-- The entries of a dictionary. -/
abbrev Fields (N : Type) := List (String × Json N)

variable {N : Type}

def Json.isList : Json N → Bool
  | .list _ => true
  | _ => false

def Json.isObject : Json N → Bool
  | .object _ => true
  | _ => false

/-- What Python makes of values. -/
structure Python (N : Type) where
  str : Json N → String
  repr : Json N → String
  isNonzero : N → Bool
  equal : Json N → Json N → Bool

variable (py : Python N)

/-! ## §2 Entries of lists -/

/-- `asset_symbol`. -/
def assetSymbol (asset : Fields N) : String :=
  py.str ((Dict.findIn "base_ticker_symbol" asset).getD (.string "?")) ++ "_" ++
    py.str ((Dict.findIn "quote_ticker_symbol" asset).getD (.string "?"))

/-- `entry_key`. -/
def entryKey (entry : Fields N) : String :=
  if (Dict.findIn "base_ticker_symbol" entry).isSome ||
      (Dict.findIn "quote_ticker_symbol" entry).isSome then assetSymbol py entry
  else py.str ((Dict.findIn "name" entry).getD (.string ""))

/-- The fields that the key of an entry is made of. -/
def keyFields : List String := ["base_ticker_symbol", "quote_ticker_symbol", "name"]

/-- The key of an entry; only a dictionary has one. -/
def Json.key? : Json N → Option String
  | .object fields => some (entryKey py fields)
  | _ => none

/-- `_find_list_entry`. -/
def findListEntry (entries : List (Json N)) (key : String) : Option (Json N) :=
  entries.find? fun entry => entry.key? py = some key

/-! ## §3 The accessors -/

/-- `path.split(".")`. -/
def pathParts (path : String) : List String := (path.toList.splitOn '.').map String.ofList

/-- One step of `_descend_path`. -/
def child? : Json N → String → Option (Json N)
  | .list entries, part => findListEntry py entries part
  | .object fields, part => Dict.findIn part fields
  | _, _ => none

/-- `_descend_path`. -/
def descendPath : Json N → List String → Option (Json N)
  | value, [] => some value
  | value, part :: rest =>
    match child? py value part with
    | none => none
    | some next => descendPath next rest

/-- `get_value`.  What is not there is null. -/
def getValue (config : Json N) (path : String) : Json N :=
  (descendPath py config (pathParts path)).getD .null

/-- Replace the first entry with the key. -/
def modifyEntry (key : String) (f : Json N → Option (Json N)) :
    List (Json N) → Option (List (Json N))
  | [] => none
  | entry :: rest =>
    if entry.key? py = some key then (f entry).map fun entry => entry :: rest
    else (modifyEntry key f rest).map fun rest => entry :: rest

/-- Replace what a part leads to. -/
def modifyChild (f : Json N → Option (Json N)) : Json N → String → Option (Json N)
  | .list entries, part => (modifyEntry py part f entries).map .list
  | .object fields, part =>
    match Dict.findIn part fields with
    | none => none
    | some value => (f value).map fun value => .object (Dict.setIn part value fields)
  | _, _ => none

/-- `target[last_part] = value`, if the target is a dictionary with the key. -/
def assign : Json N → String → Json N → Option (Json N)
  | .object fields, last, value =>
    if (Dict.findIn last fields).isSome then some (.object (Dict.setIn last value fields)) else none
  | _, _, _ => none

/-- The write of `set_value`, which changes the target in place. -/
def setAt : Json N → List String → Json N → Option (Json N)
  | _, [], _ => none
  | target, [last], value => assign target last value
  | config, part :: next :: rest, value =>
    modifyChild py (fun inner => setAt inner (next :: rest) value) config part

/-- `set_value`; nothing where it returns False. -/
def setValue (config : Json N) (path : String) (value : Json N) : Option (Json N) :=
  setAt py config (pathParts path) value

/-- The condition of `set_value`: all parts but the last lead to a dictionary with the last. -/
def canSetAt (config : Json N) (parts : List String) : Bool :=
  match parts.getLast?, descendPath py config parts.dropLast with
  | some last, some (.object fields) => (Dict.findIn last fields).isSome
  | _, _ => false

def canSet (config : Json N) (path : String) : Bool := canSetAt py config (pathParts path)

theorem canSetAt_cons (config : Json N) (part next : String) (rest : List String) :
    canSetAt py config (part :: next :: rest) =
      match child? py config part with
      | none => false
      | some inner => canSetAt py inner (next :: rest) := by
  unfold canSetAt
  rw [List.getLast?_cons_cons, List.dropLast_cons_cons, descendPath]
  cases child? py config part with
  | none => cases (next :: rest).getLast? <;> rfl
  | some inner => rfl

theorem isSome_modifyEntry (key : String) (f : Json N → Option (Json N))
    (entries : List (Json N)) :
    (modifyEntry py key f entries).isSome =
      match findListEntry py entries key with
      | none => false
      | some entry => (f entry).isSome := by
  induction entries with
  | nil => rfl
  | cons entry rest ih =>
    unfold modifyEntry findListEntry
    by_cases hkey : entry.key? py = some key
    · simp [hkey]
    · simp only [hkey, if_false, Option.isSome_map, ih, decide_false, List.find?_cons]
      rfl

theorem isSome_modifyChild (f : Json N → Option (Json N)) (config : Json N) (part : String) :
    (modifyChild py f config part).isSome =
      match child? py config part with
      | none => false
      | some inner => (f inner).isSome := by
  cases config with
  | list entries => simp only [modifyChild, Option.isSome_map, isSome_modifyEntry, child?]
  | object fields =>
    simp only [modifyChild, child?]
    cases Dict.findIn part fields with
    | none => rfl
    | some value => simp
  | _ => rfl

/-- **A value is written exactly where the condition of `set_value` holds.** -/
theorem isSome_setAt (config : Json N) (parts : List String) (value : Json N) :
    (setAt py config parts value).isSome = canSetAt py config parts := by
  induction parts generalizing config with
  | nil => rfl
  | cons part rest ih =>
    cases rest with
    | nil =>
      cases config with
      | object fields =>
        show (if (Dict.findIn part fields).isSome = true then
          some (Json.object (Dict.setIn part value fields)) else none).isSome = _
        by_cases h : (Dict.findIn part fields).isSome = true
        · rw [if_pos h]
          exact h.symm
        · rw [if_neg h]
          rw [Bool.not_eq_true] at h
          exact h.symm
      | _ => rfl
    | cons next rest =>
      rw [canSetAt_cons]
      unfold setAt
      rw [isSome_modifyChild]
      cases child? py config part with
      | none => rfl
      | some inner => exact ih inner

/-! ## §4 Paths that do not interfere -/

variable {py}

/-- No step of the path writes into the fields that a list entry is found by. -/
def KeySafe (py : Python N) : Json N → List String → Prop
  | _, [] => True
  | config, part :: rest =>
    (config.isList = true → ∀ next ∈ rest.head?, next ∉ keyFields) ∧
      ∀ inner, child? py config part = some inner → KeySafe py inner rest

/-- The paths part: neither is the other or leads further than it. -/
def Apart : List String → List String → Prop
  | part :: rest, part' :: rest' => part ≠ part' ∨ Apart rest rest'
  | _, _ => False

/-- One child of a value has been replaced. -/
structure ChildReplaced (py : Python N) (config : Json N) (part : String) (inner inner' : Json N)
    (config' : Json N) : Prop where
  old : child? py config part = some inner
  new : child? py config' part = some inner'
  others : ∀ part', part' ≠ part → child? py config' part' = child? py config part'
  isList_eq : config'.isList = config.isList
  isObject_eq : config'.isObject = config.isObject

theorem childReplaced_object {fields : Fields N} {part : String} {inner inner' : Json N}
    (h : Dict.findIn part fields = some inner) :
    ChildReplaced py (.object fields) part inner inner'
      (.object (Dict.setIn part inner' fields)) := by
  refine ⟨h, ?_, ?_, rfl, rfl⟩
  · simp [child?, Dict.findIn_setIn]
  · intro part' hne
    simp [child?, Dict.findIn_setIn, hne]

/-- The entry found under a key is replaced by one with the same key. -/
theorem findListEntry_of_modifyEntry {key : String} {f : Json N → Option (Json N)}
    {entries entries' : List (Json N)} (h : modifyEntry py key f entries = some entries')
    (hkey : ∀ entry entry', f entry = some entry' → entry'.key? py = entry.key? py) :
    ∃ entry entry', findListEntry py entries key = some entry ∧ f entry = some entry' ∧
      findListEntry py entries' key = some entry' ∧
      ∀ key', key' ≠ key → findListEntry py entries' key' = findListEntry py entries key' := by
  -- along the list: the entry is the first with the key, in the old list and in the new
  induction entries generalizing entries' with
  | nil => cases h
  | cons entry rest ih =>
    unfold modifyEntry at h
    by_cases hfound : entry.key? py = some key
    · rw [if_pos hfound] at h
      obtain ⟨entry', hf, rfl⟩ := Option.map_eq_some_iff.mp h
      have hfound' : entry'.key? py = some key := (hkey entry entry' hf).trans hfound
      refine ⟨entry, entry', ?_, hf, ?_, ?_⟩
      · simp [findListEntry, hfound]
      · simp [findListEntry, hfound']
      · intro key' hne
        simp [findListEntry, hfound, hfound', Ne.symm hne]
    · rw [if_neg hfound] at h
      obtain ⟨rest', hrest, rfl⟩ := Option.map_eq_some_iff.mp h
      obtain ⟨old, new, hold, hf, hnew, hothers⟩ := ih hrest
      refine ⟨old, new, ?_, hf, ?_, ?_⟩
      · simpa [findListEntry, hfound] using hold
      · simpa [findListEntry, hfound] using hnew
      · intro key' hne
        have hrec := hothers key' hne
        by_cases hkey' : entry.key? py = some key'
        · simp [findListEntry, hkey']
        · simpa [findListEntry, hkey'] using hrec

/-- The key of an entry does not depend on its other fields. -/
theorem entryKey_setIn {part : String} (hpart : part ∉ keyFields) (value : Json N)
    (entry : Fields N) : entryKey py (Dict.setIn part value entry) = entryKey py entry := by
  have hkept : ∀ field ∈ keyFields,
      Dict.findIn field (Dict.setIn part value entry) = Dict.findIn field entry := by
    intro field hfield
    rw [Dict.findIn_setIn, if_neg]
    rintro rfl
    exact hpart hfield
  simp only [entryKey, assetSymbol, hkept "base_ticker_symbol" (by decide),
    hkept "quote_ticker_symbol" (by decide), hkept "name" (by decide)]

theorem modifyChild_object {f : Json N → Option (Json N)} {fields : Fields N} {part : String}
    {config' : Json N} (h : modifyChild py f (.object fields) part = some config') :
    ∃ inner inner', Dict.findIn part fields = some inner ∧ f inner = some inner' ∧
      config' = .object (Dict.setIn part inner' fields) := by
  simp only [modifyChild] at h
  cases hfind : Dict.findIn part fields with
  | none =>
    rw [hfind] at h
    cases h
  | some inner =>
    rw [hfind] at h
    obtain ⟨inner', hf, rfl⟩ := Option.map_eq_some_iff.mp h
    exact ⟨inner, inner', rfl, hf, rfl⟩

theorem assign_eq_some {config config' : Json N} {last : String} {value : Json N}
    (h : assign config last value = some config') :
    ∃ fields inner, config = .object fields ∧ Dict.findIn last fields = some inner ∧
      config' = .object (Dict.setIn last value fields) := by
  cases config with
  | object fields =>
    simp only [assign] at h
    split at h
    · rename_i hsome
      obtain ⟨inner, hinner⟩ := Option.isSome_iff_exists.mp hsome
      exact ⟨fields, inner, rfl, hinner, (Option.some.inj h).symm⟩
    · cases h
  | _ => cases h

/-- A write into a dictionary changes one of its fields. -/
theorem setAt_object {fields : Fields N} {part : String} {rest : List String} {value : Json N}
    {config' : Json N} (h : setAt py (.object fields) (part :: rest) value = some config') :
    ∃ inner inner', Dict.findIn part fields = some inner ∧
      config' = .object (Dict.setIn part inner' fields) := by
  cases rest with
  | nil =>
    obtain ⟨fields', inner, heq, hinner, rfl⟩ := assign_eq_some h
    obtain rfl := Json.object.inj heq
    exact ⟨inner, value, hinner, rfl⟩
  | cons next rest =>
    obtain ⟨inner, inner', hinner, -, rfl⟩ := modifyChild_object h
    exact ⟨inner, inner', hinner, rfl⟩

/-- A write past a field that is not part of the key leaves an entry its key. -/
theorem key?_setAt {entry entry' : Json N} {part : String} {rest : List String} {value : Json N}
    (hpart : part ∉ keyFields) (h : setAt py entry (part :: rest) value = some entry') :
    entry'.key? py = entry.key? py := by
  cases entry with
  | object fields =>
    obtain ⟨inner, inner', -, rfl⟩ := setAt_object h
    simp only [Json.key?, entryKey_setIn hpart]
  | list entries =>
    cases rest with
    | nil => cases h
    | cons next rest =>
      obtain ⟨entries', -, rfl⟩ := Option.map_eq_some_iff.mp h
      rfl
  | _ => cases rest <;> cases h

/-- **What a write does to the value it starts from.** -/
theorem setAt_cases {config config' : Json N} {part : String} {rest : List String}
    {value : Json N} (hsafe : KeySafe py config (part :: rest))
    (h : setAt py config (part :: rest) value = some config') :
    ∃ inner inner', ChildReplaced py config part inner inner' config' ∧
      (rest = [] ∧ inner' = value ∨ rest ≠ [] ∧ setAt py inner rest value = some inner') := by
  cases rest with
  | nil =>
    obtain ⟨fields, inner, rfl, hinner, rfl⟩ := assign_eq_some h
    exact ⟨inner, value, childReplaced_object hinner, Or.inl ⟨rfl, rfl⟩⟩
  | cons next rest =>
    cases config with
    | object fields =>
      obtain ⟨inner, inner', hinner, hset, rfl⟩ := modifyChild_object h
      exact ⟨inner, inner', childReplaced_object hinner, Or.inr ⟨by simp, hset⟩⟩
    | list entries =>
      obtain ⟨entries', hmodify, rfl⟩ := Option.map_eq_some_iff.mp h
      -- the entry keeps its key, so that it is still the one that is found
      obtain ⟨inner, inner', hold, hset, hnew, hothers⟩ := findListEntry_of_modifyEntry hmodify
        fun entry entry' => key?_setAt (hsafe.1 rfl next rfl)
      exact ⟨inner, inner', ⟨hold, hnew, hothers, rfl, rfl⟩, Or.inr ⟨by simp, hset⟩⟩
    | _ => cases h

theorem descendPath_cons (config : Json N) (part : String) (rest : List String) :
    descendPath py config (part :: rest) =
      (child? py config part).bind fun inner => descendPath py inner rest := by
  rw [descendPath]
  cases child? py config part <;> rfl

/-- The last part of a path is a key of a dictionary. -/
theorem canSetAt_singleton (config : Json N) (last : String) :
    canSetAt py config [last] = (config.isObject && (child? py config last).isSome) := by
  cases config <;> rfl

theorem descendPath_setAt_self {config config' : Json N} {parts : List String} {value : Json N}
    (hsafe : KeySafe py config parts) (h : setAt py config parts value = some config') :
    descendPath py config' parts = some value := by
  induction parts generalizing config config' with
  | nil => cases h
  | cons part rest ih =>
    obtain ⟨inner, inner', hchild, hrest⟩ := setAt_cases hsafe h
    rw [descendPath_cons, hchild.new, Option.bind_some]
    rcases hrest with ⟨rfl, rfl⟩ | ⟨-, hset⟩
    · rfl
    · exact ih (hsafe.2 inner hchild.old) hset

theorem descendPath_setAt_apart {config config' : Json N} {parts parts' : List String}
    {value : Json N} (hsafe : KeySafe py config parts) (hapart : Apart parts parts')
    (h : setAt py config parts value = some config') :
    descendPath py config' parts' = descendPath py config parts' := by
  induction parts generalizing config config' parts' with
  | nil => cases h
  | cons part rest ih =>
    cases parts' with
    | nil => exact hapart.elim
    | cons part' rest' =>
      obtain ⟨inner, inner', hchild, hrest⟩ := setAt_cases hsafe h
      rw [descendPath_cons, descendPath_cons]
      by_cases heq : part' = part
      · -- both go on from the child that is replaced
        subst heq
        rw [hchild.new, hchild.old, Option.bind_some, Option.bind_some]
        have hapart' : Apart rest rest' := hapart.resolve_left fun hne => hne rfl
        rcases hrest with ⟨rfl, -⟩ | ⟨-, hset⟩
        · exact hapart'.elim
        · exact ih (hsafe.2 inner hchild.old) hapart' hset
      · rw [hchild.others part' heq]

/-- A write gives a configuration no other fields than it had. -/
theorem canSetAt_setAt {config config' : Json N} {parts parts' : List String} {value : Json N}
    (hsafe : KeySafe py config parts) (hapart : parts = parts' ∨ Apart parts parts')
    (h : setAt py config parts value = some config') :
    canSetAt py config' parts' = canSetAt py config parts' := by
  -- along both paths as long as they agree; from where they part nothing has changed
  induction parts generalizing config config' parts' with
  | nil => cases h
  | cons part rest ih =>
    cases parts' with
    | nil => rfl
    | cons part' rest' =>
      obtain ⟨inner, inner', hchild, hrest⟩ := setAt_cases hsafe h
      have hothers := hchild.others part'
      cases rest' with
      | nil =>
        rw [canSetAt_singleton, canSetAt_singleton, hchild.isObject_eq]
        by_cases heq : part' = part
        · rw [heq, hchild.new, hchild.old]
          rfl
        · rw [hothers heq]
      | cons next' rest' =>
        rw [canSetAt_cons, canSetAt_cons]
        by_cases heq : part' = part
        · subst heq
          rw [hchild.new, hchild.old]
          have hrel : rest = next' :: rest' ∨ Apart rest (next' :: rest') := by
            rcases hapart with heq | hapart
            · exact Or.inl (List.cons.inj heq).2
            · exact Or.inr (hapart.resolve_left fun hne => hne rfl)
          rcases hrest with ⟨rfl, -⟩ | ⟨-, hset⟩
          · rcases hrel with heq | hapart
            · cases heq
            · exact hapart.elim
          · exact ih (hsafe.2 inner hchild.old) hrel hset
        · rw [hothers heq]

theorem keySafe_setAt {config config' : Json N} {parts parts' : List String} {value : Json N}
    (hsafe : KeySafe py config parts) (hsafe' : KeySafe py config parts')
    (hapart : parts = parts' ∨ Apart parts parts')
    (h : setAt py config parts value = some config') : KeySafe py config' parts' := by
  induction parts generalizing config config' parts' with
  | nil => cases h
  | cons part rest ih =>
    cases parts' with
    | nil => trivial
    | cons part' rest' =>
      obtain ⟨inner, inner', hchild, hrest⟩ := setAt_cases hsafe h
      refine ⟨fun hlist => hsafe'.1 (hchild.isList_eq ▸ hlist), fun inner₁ hinner₁ => ?_⟩
      by_cases heq : part' = part
      · subst heq
        obtain rfl := Option.some.inj (hchild.new.symm.trans hinner₁)
        have hrel : rest = rest' ∨ Apart rest rest' := by
          rcases hapart with heq | hapart
          · exact Or.inl (List.cons.inj heq).2
          · exact Or.inr (hapart.resolve_left fun hne => hne rfl)
        rcases hrest with ⟨rfl, -⟩ | ⟨-, hset⟩
        · -- the new value is the end of the path
          rcases hrel with rfl | hapart
          · trivial
          · exact hapart.elim
        · exact ih (hsafe.2 inner hchild.old) (hsafe'.2 inner hchild.old) hrel hset
      · rw [hchild.others part' heq] at hinner₁
        exact hsafe'.2 inner₁ hinner₁

/-! ## §5 The accessors as slots -/

theorem pathParts_injective {path path' : String} (h : pathParts path = pathParts path') :
    path = path' := by
  have hsplit : path.toList.splitOn '.' = path'.toList.splitOn '.' :=
    List.map_injective_iff.mpr (fun _ _ h => String.ofList_injective h) h
  have hjoin := congrArg (List.intercalate ['.']) hsplit
  rw [List.intercalate_splitOn, List.intercalate_splitOn] at hjoin
  exact String.toList_injective hjoin

/-- The paths of a configuration, by `get_value` and `set_value`. -/
def slots (py : Python N) : Slots (Json N) String (Json N) where
  get := getValue py
  has := canSet py
  set := setValue py

def PathApart (path path' : String) : Prop := Apart (pathParts path) (pathParts path')

def PathSafe (py : Python N) (config : Json N) (path : String) : Prop :=
  KeySafe py config (pathParts path)

/-- **The accessors do not interfere**: a safe write is read back, it leaves the paths apart from
    it as they were, and a value is written only where there is one. -/
theorem lawful_slots : (slots py).Lawful (PathSafe py) PathApart where
  isSome_set c p v := isSome_setAt py c (pathParts p) v
  get_set := by
    intro c p v c' hsafe h
    show (descendPath py c' (pathParts p)).getD .null = v
    rw [descendPath_setAt_self hsafe h]
    rfl
  get_set_apart := by
    intro c p v c' q hsafe hapart h
    show (descendPath py c' (pathParts q)).getD .null = (descendPath py c (pathParts q)).getD .null
    rw [descendPath_setAt_apart hsafe hapart h]
  has_set := by
    intro c p v c' q hsafe hapart h
    exact canSetAt_setAt hsafe (hapart.imp_left (congrArg pathParts)) h
  writable_set := by
    intro c p v c' q hsafe hsafe' hapart h
    exact keySafe_setAt hsafe hsafe' (hapart.imp_left (congrArg pathParts)) h

end CryptoTrading.Agent.Configuration
