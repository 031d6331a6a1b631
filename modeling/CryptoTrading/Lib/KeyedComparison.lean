import CryptoTrading.Lib.Dict

/-!
# Dictionaries that are compared key by key

Two collections whose elements are found by a key are compared under all the keys of both
(`fromKeys`).  They match when every key has related values in both or a value in neither
(`Matched`).  Where related values have the same key, the keys no longer matter
(`matched_iff_covers`): each value of the one has a related value in the other.
-/

namespace CryptoTrading.Lib

variable {K V W : Type} [DecidableEq K]

/-! ## §1 Keys without repetitions -/

/-- Each key once, where it occurs first. -/
def fromKeys (keys : List K) : List K := (Dict.ofList (keys.map fun key => (key, ()))).keys

@[simp] theorem mem_fromKeys {keys : List K} {key : K} : key ∈ fromKeys keys ↔ key ∈ keys := by
  simp [fromKeys, Dict.mem_keys_ofList, List.map_map, Function.comp_def]

theorem nodup_fromKeys (keys : List K) : (fromKeys keys).Nodup := Dict.nodupKeys _

/-- The same keys in another order are collected in another order. -/
theorem fromKeys_append_comm (keys keys' : List K) :
    (fromKeys (keys ++ keys')).Perm (fromKeys (keys' ++ keys)) := by
  apply (List.perm_ext_iff_of_nodup (nodup_fromKeys _) (nodup_fromKeys _)).mpr
  intro key
  rw [mem_fromKeys, mem_fromKeys, List.mem_append, List.mem_append, or_comm]

/-! ## §2 Matching values -/

/-- Under each key there are related values, or none. -/
def Matched (R : V → W → Prop) (a : Dict K V) (b : Dict K W) : Prop :=
  ∀ key, Option.Rel R (a.get? key) (b.get? key)

/-- Each value of the one has a related value in the other. -/
def Covers (R : V → W → Prop) (as : List V) (bs : List W) : Prop :=
  (∀ x ∈ as, ∃ y ∈ bs, R x y) ∧ ∀ y ∈ bs, ∃ x ∈ as, R x y

variable {R : V → W → Prop} {a : Dict K V} {b : Dict K W}

theorem Matched.exists_right (h : Matched R a b) {k : K} {x : V} (hx : a.get? k = some x) :
    ∃ y, b.get? k = some y ∧ R x y := by
  have hrel := h k
  rw [hx] at hrel
  cases hget : b.get? k with
  | none =>
    rw [hget] at hrel
    cases hrel
  | some y =>
    rw [hget] at hrel
    cases hrel with
    | some hxy => exact ⟨y, rfl, hxy⟩

theorem Matched.exists_left (h : Matched R a b) {k : K} {y : W} (hy : b.get? k = some y) :
    ∃ x, a.get? k = some x ∧ R x y := by
  have hrel := h k
  rw [hy] at hrel
  cases hget : a.get? k with
  | none =>
    rw [hget] at hrel
    cases hrel
  | some x =>
    rw [hget] at hrel
    cases hrel with
    | some hxy => exact ⟨x, rfl, hxy⟩

theorem matched_iff_covers
    (hkey : ∀ k x l y, a.get? k = some x → b.get? l = some y → R x y → k = l) :
    Matched R a b ↔ Covers R a.values b.values := by
  constructor
  · intro h
    constructor
    · intro x hx
      obtain ⟨k, hk⟩ := (a.mem_values_iff x).mp hx
      obtain ⟨y, hy, hxy⟩ := h.exists_right hk
      exact ⟨y, (b.mem_values_iff y).mpr ⟨k, hy⟩, hxy⟩
    · intro y hy
      obtain ⟨k, hk⟩ := (b.mem_values_iff y).mp hy
      obtain ⟨x, hx, hxy⟩ := h.exists_left hk
      exact ⟨x, (a.mem_values_iff x).mpr ⟨k, hx⟩, hxy⟩
  · rintro ⟨hleft, hright⟩ k
    cases ha : a.get? k with
    | none =>
      cases hb : b.get? k with
      | none => exact .none
      | some y =>
        -- the related value would be under the same key
        obtain ⟨x, hx, hxy⟩ := hright y ((b.mem_values_iff y).mpr ⟨k, hb⟩)
        obtain ⟨l, hl⟩ := (a.mem_values_iff x).mp hx
        rw [hkey l x k y hl hb hxy, ha] at hl
        cases hl
    | some x =>
      obtain ⟨y, hy, hxy⟩ := hleft x ((a.mem_values_iff x).mpr ⟨k, ha⟩)
      obtain ⟨l, hl⟩ := (b.mem_values_iff y).mp hy
      rw [← hkey k x l y ha hl hxy] at hl
      rw [hl]
      exact .some hxy

/-- Values that are related when their images agree: the sets of the images are the same. -/
theorem covers_image_iff {I : Type} {f : V → I} {g : W → I} {as : List V} {bs : List W} :
    Covers (fun x y => f x = g y) as bs ↔ ∀ i, i ∈ as.map f ↔ i ∈ bs.map g := by
  constructor
  · rintro ⟨hleft, hright⟩ i
    constructor
    · intro hi
      obtain ⟨x, hx, rfl⟩ := List.mem_map.mp hi
      obtain ⟨y, hy, hxy⟩ := hleft x hx
      exact List.mem_map.mpr ⟨y, hy, hxy.symm⟩
    · intro hi
      obtain ⟨y, hy, rfl⟩ := List.mem_map.mp hi
      obtain ⟨x, hx, hxy⟩ := hright y hy
      exact List.mem_map.mpr ⟨x, hx, hxy⟩
  · intro h
    constructor
    · intro x hx
      obtain ⟨y, hy, hxy⟩ := List.mem_map.mp ((h (f x)).mp (List.mem_map_of_mem hx))
      exact ⟨y, hy, hxy.symm⟩
    · intro y hy
      obtain ⟨x, hx, hxy⟩ := List.mem_map.mp ((h (g y)).mpr (List.mem_map_of_mem hy))
      exact ⟨x, hx, hxy⟩

/-- Relating the images of the values is relating the lists of their images. -/
theorem covers_map_iff {V' W' : Type} {S : V' → W' → Prop} {f : V → V'} {g : W → W'}
    {as : List V} {bs : List W} :
    Covers S (as.map f) (bs.map g) ↔ Covers (fun x y => S (f x) (g y)) as bs := by
  simp [Covers]

end CryptoTrading.Lib
